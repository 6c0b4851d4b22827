import Syndication.Proofs.Office
import Syndication.Rehearsal.Stage

namespace Syndication

namespace Program

variable {I : Interface} {α σ τ : Type}

def transcript (perform : (c : I.Call) → σ → I.Answer c × σ) :
    Program I α → σ → List I.Exchange
  | .done _, _ => []
  | .call c next, s =>
    let (answer, s) := perform c s
    ⟨c, answer⟩ :: (next answer).transcript perform s
  | .overflow, _ => []

theorem transcript_bind {β : Type} (perform : (c : I.Call) → σ → I.Answer c × σ)
    (p : Program I α) (f : α → Program I β) (s : σ) : (p.bind f).transcript perform s =
      p.transcript perform s ++ match p.run perform s with
        | (some value, s) => (f value).transcript perform s
        | (none, _) => [] := by
  induction p generalizing s with
  | done value => rfl
  | call c next ih => simp [bind, transcript, run, ih]
  | overflow => rfl

def ended : Option α → Program I α
  | some value => .done value
  | none => .overflow

theorem exists_ok {ε : Type} {outcome : Option (Except ε α)} (check : α → Bool)
    (passes : (outcome.bind Except.toOption).any check = true) :
    ∃ value, outcome = some (.ok value) ∧ check value = true := by
  match outcome with
  | some (.ok value) => exact ⟨value, rfl, passes⟩
  | some (.error _) | none => cases passes

theorem exists_error {ε : Type} {outcome : Option (Except ε α)}
    (fails : outcome.any (fun result => !result.isOk) = true) :
    ∃ error, outcome = some (.error error) := by
  match outcome with
  | some (.error error) => exact ⟨error, rfl⟩
  | some (.ok _) | none => cases fails

theorem ended_isOver (outcome : Option α) : (ended outcome : Program I α).IsOver := by
  cases outcome <;> trivial

/-- Every call of a run passes a check, made right before it. -/
def passes (perform : (c : I.Call) → σ → I.Answer c × σ) (check : I.Call → σ → Bool) :
    Program I α → σ → Bool
  | .done _, _ => true
  | .call c next, s =>
    let (answer, later) := perform c s
    check c s && (next answer).passes perform check later
  | .overflow, _ => true

theorem plays_run_of_passes {around : Surroundings I τ}
    {perform : (c : I.Call) → σ → I.Answer c × σ} {view : σ → τ} {honest : σ → Prop}
    {check : I.Call → σ → Bool}
    (imitates : ∀ c s, honest s → check c s = true →
      around (view s) c (perform c s).1 (view (perform c s).2) ∧ honest (perform c s).2)
    (p : Program I α) {s : σ} (begun : honest s) (passes : p.passes perform check s = true) :
    p.Plays around (view s) (p.transcript perform s) (ended (p.run perform s).1)
      (view (p.run perform s).2) ∧ honest (p.run perform s).2 := by
  induction p generalizing s with
  | done value => exact ⟨.stop _ _, begun⟩
  | overflow => exact ⟨.stop _ _, begun⟩
  | call c next ih =>
    obtain ⟨here, rest⟩ := Bool.and_eq_true_iff.1 passes
    obtain ⟨answered, still⟩ := imitates c s begun here
    obtain ⟨plays, last⟩ := ih (perform c s).1 still rest
    exact ⟨.call answered plays, last⟩

theorem passes_nothing (perform : (c : I.Call) → σ → I.Answer c × σ) (p : Program I α) (s : σ) :
    p.passes perform (fun _ _ => true) s = true := by
  induction p generalizing s with
  | done value => rfl
  | overflow => rfl
  | call c next ih => exact ih _ _

theorem plays_run {around : Surroundings I τ} {perform : (c : I.Call) → σ → I.Answer c × σ}
    {view : σ → τ} {honest : σ → Prop}
    (imitates : ∀ c s, honest s →
      around (view s) c (perform c s).1 (view (perform c s).2) ∧ honest (perform c s).2)
    (p : Program I α) {s : σ} (begun : honest s) :
    p.Plays around (view s) (p.transcript perform s) (ended (p.run perform s).1)
      (view (p.run perform s).2) ∧ honest (p.run perform s).2 :=
  plays_run_of_passes (fun c s still _ => imitates c s still) p begun (passes_nothing perform p s)

end Program

namespace Stores

/-- The answer tells no fault, and an identifier that it gives out is new. -/
def fares (s : Stores) : (c : RecordCall) → c.Answer → Bool
  | .freshId, id => s.jobs.rows.all fun row => row.id != ⟨id⟩
  | .now, _ => true
  | .insertJob _, answer | .updateJob _, answer | .findJob _, answer | .findJobByKey _, answer
  | .insertPost _, answer | .findPost _, answer | .send _, answer => answer.isOk

theorem faultless_of_fares {s : Stores} {c : RecordCall} {answer : c.Answer}
    (fares : s.fares c answer = true) : s.Faultless c answer := by
  cases c with
  | now => trivial
  | freshId =>
    intro row member
    simpa using List.all_eq_true.1 fares row member
  | _ =>
    cases answer with
    | ok _ => trivial
    | error fault => cases fares

end Stores

namespace Rehearsal

theorem Plan.take_cases (point : Point) (plan : Plan) :
    ((plan.take point).1 = .normal ∨ (point, (plan.take point).1) ∈ plan) ∧
      ∀ entry ∈ (plan.take point).2, entry ∈ plan := by
  induction plan with
  | nil => simp [Plan.take]
  | cons entry rest ih =>
    obtain ⟨taken, left⟩ := ih
    by_cases here : entry.1 = point
    · subst here
      simp only [Plan.take, if_true]
      exact ⟨.inr (List.mem_cons_self ..), fun other member => List.mem_cons_of_mem _ member⟩
    · simp only [Plan.take, if_neg here]
      refine ⟨taken.imp_right (List.mem_cons_of_mem _), fun other member => ?_⟩
      rcases List.mem_cons.1 member with rfl | member
      · exact List.mem_cons_self ..
      · exact List.mem_cons_of_mem _ (left other member)

theorem takeTurn_cases (platform : Platform) (turns : List (Platform × PublishTurn)) :
    ((takeTurn platform turns).1.rival = none ∨
      (platform, (takeTurn platform turns).1) ∈ turns) ∧
      ∀ entry ∈ (takeTurn platform turns).2, entry ∈ turns := by
  induction turns with
  | nil => simp [takeTurn]
  | cons entry rest ih =>
    obtain ⟨taken, left⟩ := ih
    by_cases here : entry.1 = platform
    · subst here
      simp only [takeTurn, if_true]
      exact ⟨.inr (List.mem_cons_self ..), fun other member => List.mem_cons_of_mem _ member⟩
    · simp only [takeTurn, if_neg here]
      refine ⟨taken.imp_right (List.mem_cons_of_mem _), fun other member => ?_⟩
      rcases List.mem_cons.1 member with rfl | member
      · exact List.mem_cons_self ..
      · exact List.mem_cons_of_mem _ (left other member)

namespace Stage

/-- Calls do their work or fail without effect, and publishers and endpoints are scripted and have
no rivals. -/
structure Honest (stage : Stage) : Prop where
  plan : ∀ entry ∈ stage.plan, entry.2 = .normal ∨ entry.2 = .fault
  alone : ∀ entry ∈ stage.publishTurns, entry.2.rival = none
  scripted : stage.web = none

def stores (stage : Stage) : Stores := ⟨stage.jobs, stage.posts⟩

/-- On an honest stage, a call at a point fails as a database does or does its work. Only the plan
is another one then. -/
theorem Honest.atPoint_of_plan {α : Type} {stage : Stage} (honest : stage.Honest) {point : Point}
    {work : Effect → Stage → Except ServiceFault α × Stage}
    {P : Except ServiceFault α × Stage → Prop}
    (failed : ∀ plan, { stage with plan }.Honest →
      P (.error (.database (injected point)), { stage with plan }))
    (worked : ∀ plan, { stage with plan }.Honest → P (work .normal { stage with plan })) :
    P (stage.atPoint point work) := by
  obtain ⟨taken, left⟩ := stage.plan.take_cases point
  have still : { stage with plan := (stage.plan.take point).2 }.Honest :=
    ⟨fun entry member => honest.plan entry (left entry member), honest.alone, honest.scripted⟩
  have effect : (stage.plan.take point).1 = .normal ∨ (stage.plan.take point).1 = .fault := by
    rcases taken with normal | planned
    · exact .inl normal
    · exact honest.plan _ planned
  rcases effect with normal | fault
  · simpa only [Stage.atPoint, takeEffect, normal] using worked _ still
  · simpa only [Stage.atPoint, takeEffect, fault] using failed _ still

theorem Honest.atPoint {α : Type} {stage : Stage} (honest : stage.Honest) {point : Point}
    {work : Effect → Stage → Except ServiceFault α × Stage}
    {P : Except ServiceFault α × Stage → Prop}
    (failed : ∀ later : Stage, later.Honest → later.stores = stage.stores →
      P (.error (.database (injected point)), later))
    (worked : ∀ later : Stage, later.Honest → later.stores = stage.stores →
      P (work .normal later)) : P (stage.atPoint point work) :=
  honest.atPoint_of_plan (fun _ still => failed _ still rfl) fun _ still => worked _ still rfl

theorem Honest.noRival {stage : Stage} (honest : stage.Honest) (platform : Platform) :
    (takeTurn platform stage.publishTurns).1.rival = none := by
  rcases (takeTurn_cases platform stage.publishTurns).1 with plain | planned
  · exact plain
  · exact honest.alone _ planned

def Imitates (s : Stores) (c : ServiceCall) (outcome : c.Answer × Stage) : Prop :=
  s.Replies c outcome.1 outcome.2.stores ∧ outcome.2.Honest

theorem keep_imitates (c : RecordCall) (stage : Stage) (honest : stage.Honest) :
    Imitates stage.stores (.records c) (stage.keep c) := by
  cases c with
  | now => exact ⟨rfl, honest⟩
  | freshId => exact ⟨rfl, honest.plan, honest.alone, honest.scripted⟩
  | insertJob job =>
    have trailed : { stage with jobTrail := stage.jobTrail ++ [job.id] }.Honest :=
      ⟨honest.plan, honest.alone, honest.scripted⟩
    simp only [keep, insertJob]
    refine trailed.atPoint (P := Imitates stage.stores (.records (.insertJob job)))
      (fun later still same => ⟨same, still⟩)
      fun later still same => ?_
    change later.stores = stage.stores at same
    rw [← same]
    cases inserted : later.jobs.insert job with
    | ok jobs =>
      simp only
      exact ⟨⟨jobs, inserted, rfl⟩, still.plan, still.alone, still.scripted⟩
    | error fault => exact ⟨rfl, still⟩
  | updateJob job =>
    simp only [keep, updateJob]
    refine honest.atPoint (P := Imitates stage.stores (.records (.updateJob job)))
      (fun later still same => ⟨same, still⟩)
      fun later still same => ?_
    rw [← same]
    rcases updated : later.jobs.update job with fault | ⟨written, jobs⟩
    · simp only
      exact ⟨rfl, still⟩
    · simp only
      exact ⟨⟨jobs, updated, rfl⟩, still.plan, still.alone, still.scripted⟩
  | findJob id =>
    simp only [keep, lookJob]
    refine honest.atPoint (P := Imitates stage.stores (.records (.findJob id)))
      (fun later still same => ⟨same, still⟩)
      fun later still same => ?_
    rw [← same]
    exact ⟨⟨by simp [stores], rfl⟩, still⟩
  | findJobByKey key =>
    simp only [keep, lookJob]
    refine honest.atPoint (P := Imitates stage.stores (.records (.findJobByKey key)))
      (fun later still same => ⟨same, still⟩)
      fun later still same => ?_
    rw [← same]
    exact ⟨⟨by simp [stores], rfl⟩, still⟩
  | insertPost post =>
    have trailed : { stage with postTrail := stage.postTrail ++ [post.id] }.Honest :=
      ⟨honest.plan, honest.alone, honest.scripted⟩
    simp only [keep, insertPost]
    refine trailed.atPoint (P := Imitates stage.stores (.records (.insertPost post)))
      (fun later still same => ⟨⟨?_, same⟩, still⟩)
      fun later still same => ?_
    · intro duplicate
      cases duplicate
    change later.stores = stage.stores at same
    rw [← same]
    cases inserted : later.posts.insert post with
    | ok posts =>
      simp only
      exact ⟨⟨posts, inserted, rfl⟩, still.plan, still.alone, still.scripted⟩
    | error fault =>
      simp only
      exact ⟨⟨fun _ => PostStore.insert_eq_error inserted, rfl⟩, still⟩
  | findPost job =>
    simp only [keep, look]
    refine honest.atPoint (P := Imitates stage.stores (.records (.findPost job)))
      (fun later still same => ⟨same, still⟩)
      fun later still same => ?_
    rw [← same]
    exact ⟨⟨by simp [stores], rfl⟩, still⟩
  | send envelope =>
    simp only [keep, send]
    cases stage.bus.send envelope with
    | ok bus => exact ⟨rfl, honest.plan, honest.alone, honest.scripted⟩
    | error fault => exact ⟨rfl, honest⟩

theorem perform_imitates (c : ServiceCall) (stage : Stage) (honest : stage.Honest) :
    Imitates stage.stores c (stage.perform c) := by
  cases c with
  | records c => exact stage.keep_imitates c honest
  | getAccount id =>
    simp only [perform, look]
    refine honest.atPoint (P := Imitates stage.stores (.getAccount id))
      (fun later still same => ⟨same, still⟩) fun later still same => ⟨same, still⟩
  | saveAccount account =>
    simp only [perform, saveAccount]
    refine honest.atPoint (P := Imitates stage.stores (.saveAccount account))
      (fun later still same => ⟨same, still⟩) fun later still same => ?_
    cases later.accounts.save account with
    | ok accounts => exact ⟨same, still.plan, still.alone, still.scripted⟩
    | error fault => exact ⟨same, still⟩
  | lease account => exact ⟨rfl, honest.plan, honest.alone, honest.scripted⟩
  | enter lease => exact ⟨rfl, honest.plan, honest.alone, honest.scripted⟩
  | leave lease => exact ⟨rfl, honest.plan, honest.alone, honest.scripted⟩
  | giveBack lease => exact ⟨rfl, honest.plan, honest.alone, honest.scripted⟩
  | sweep account => exact ⟨rfl, honest.plan, honest.alone, honest.scripted⟩
  | renew platform token limit =>
    simp only [perform, renewal, askToken, honest.scripted]
    exact ⟨rfl, honest.plan, honest.alone, honest.scripted⟩
  | publish platform context =>
    have left := (takeTurn_cases platform stage.publishTurns).2
    simp only [perform, publish, playPublish, honest.scripted, honest.noRival platform]
    exact ⟨rfl, honest.plan, fun entry member => honest.alone entry (left entry member), rfl⟩

def fares (c : ServiceCall) (stage : Stage) : Bool :=
  match c with
  | .records c => stage.stores.fares c (stage.keep c).1
  | _ => true

/-- A call that fares well is answered as by records that work. -/
theorem perform_serves (c : ServiceCall) (stage : Stage) (honest : stage.Honest)
    (fares : stage.fares c = true) :
    stage.stores.Serves c (stage.perform c).1 (stage.perform c).2.stores ∧
      (stage.perform c).2.Honest := by
  obtain ⟨answered, still⟩ := stage.perform_imitates c honest
  refine ⟨?_, still⟩
  cases c with
  | records c => exact ⟨answered, Stores.faultless_of_fares fares⟩
  | _ => exact answered

section

variable {α : Type} {stage : Stage} (honest : stage.Honest) {action : Action Services α}
  {outcome : Except PublishError α} (is : (stage.act action).1 = some outcome)
include honest is

theorem act_plays : action.run.Plays Stores.Replies stage.stores
    (action.run.transcript Stage.perform stage) (.done outcome) (stage.act action).2.stores ∧
      (stage.act action).2.Honest := by
  have plays := Program.plays_run Stage.perform_imitates action.run honest
  rw [act] at is ⊢
  rwa [is] at plays

theorem act_serves (fares : action.run.passes Stage.perform Stage.fares stage = true) :
    action.run.Plays Stores.Serves stage.stores (action.run.transcript Stage.perform stage)
      (.done outcome) (stage.act action).2.stores := by
  have plays := Program.plays_run_of_passes Stage.perform_serves action.run honest fares
  rw [act] at is ⊢
  rw [is] at plays
  exact plays.1

end

end Stage

/-- Tasks that were carried out on a stage one after the other. -/
structure Session where
  log : OfficeLog := []
  errands : List Errand := []
  stage : Stage

namespace Session

def office (session : Session) : Office := ⟨session.stage.stores, session.errands⟩

def attend (session : Session) (task : Task) : Session :=
  let (outcome, stage) := task.action.run.run Stage.perform session.stage
  let calls := task.action.run.transcript Stage.perform session.stage
  ⟨session.log ++ calls.map (Prod.mk session.errands.length),
    session.errands ++ [⟨task, .ended outcome⟩], stage⟩

theorem errands_attend (session : Session) (task : Task) : (session.attend task).errands =
    session.errands ++ [⟨task, .ended (task.action.run.run Stage.perform session.stage).1⟩] := rfl

/-- The task is begun, and makes no call yet. -/
def assign (session : Session) (task : Task) : Session :=
  { session with errands := session.errands ++ [⟨task, task.action.run⟩] }

/-- The errand with this number has its next call answered by the stage. -/
def turn (session : Session) (i : Nat) : Session :=
  match session.errands[i]? with
  | some ⟨task, .call c next⟩ =>
    let (answer, stage) := session.stage.perform c
    ⟨session.log ++ [(i, ⟨c, answer⟩)], session.errands.set i ⟨task, next answer⟩, stage⟩
  | _ => session

/-- The session is a run of an office from its beginning, on an honest stage. -/
def IsRun (session : Session) : Prop :=
  Office.Runs {} session.log session.office ∧ session.stage.Honest

theorem IsRun.of_empty {stage : Stage} (honest : stage.Honest) (empty : stage.stores = {}) :
    IsRun { stage } := by
  refine ⟨?_, honest⟩
  rw [office, empty]
  exact .refl

theorem IsRun.attend {session : Session} (isRun : session.IsRun) (task : Task)
    (handedOut : ∀ job, task.job? = some job → session.office.HandsOut job) :
    (session.attend task).IsRun := by
  obtain ⟨runs, honest⟩ := isRun
  obtain ⟨plays, still⟩ := Program.plays_run Stage.perform_imitates task.action.run honest
  exact ⟨runs.attend handedOut plays, still⟩

end Session

namespace Cast

def morning : Timestamp := default

def user : UserId := ⟨"user-1", by decide +kernel⟩

def account : Account where
  id := ⟨.ofNat 1⟩
  userId := user
  platform := .youtube
  externalId := "channel-1"
  displayName := none
  accessToken := ⟨"token-1"⟩
  refreshToken := none
  expiresAt := some ⟨86400, 0, by decide⟩
  createdAt := morning
  updatedAt := morning

def request : Request where
  eventId := ⟨"event-1"⟩
  userId := user
  contentId := ⟨.ofNat 2⟩
  accountId := account.id
  platform := "YOUTUBE"
  scheduledAt := morning
  idempotencyKey := some "key-1"

/-- The request with another key. -/
def keyed (key : String) : Request := { request with idempotencyKey := some key }

def engine : Engine where
  registry := ⟨[(.youtube, .youtube)], by decide⟩
  retryBudget := Job.defaultMaxRetries
  renewal := ⟨300, 15000⟩

/-- A stage on which the next updates of jobs go as planned and the platform answers as told, and
all other calls do their work. -/
def stage (updates : List Bool) (answers : List PublishResult) : Stage where
  engine := engine
  clock := morning
  firstId := 16
  accounts := { rows := [account] }
  plan := updates.map fun works => (.updateJob, if works then .normal else .fault)
  publishTurns := answers.map fun answer => (.youtube, { outcome := some (.ok answer) })

theorem stage_honest (updates : List Bool) (answers : List PublishResult) :
    (stage updates answers).Honest where
  plan entry member := by
    obtain ⟨works, _, rfl⟩ := List.mem_map.1 member
    cases works <;> simp
  alone entry member := by
    obtain ⟨answer, _, rfl⟩ := List.mem_map.1 member
    rfl
  scripted := rfl

/-- A session on such a stage in which a request is delivered. -/
def once (request : Request) (answers : List PublishResult) : Session :=
  Session.attend { stage := stage [] answers } (.execute engine request)

theorem once_isRun (request : Request) (answers : List PublishResult) :
    (once request answers).IsRun :=
  (Session.IsRun.of_empty (stage_honest [] answers) rfl).attend _ (by simp [Task.job?])

theorem once_errands (request : Request) (answers : List PublishResult) : ∃ outcome,
    (once request answers).office.errands = [⟨.execute engine request, .ended outcome⟩] := by
  simp [Session.office, once, Session.errands_attend]

/-- Such a stage after one delivery of the request. -/
def delivered (updates : List Bool) (answers : List PublishResult) : Stage :=
  ((stage updates answers).act (engine.execute request)).2

/-- A session on such a stage in which the request is delivered twice. -/
def twice (updates : List Bool) (answers : List PublishResult) : Session :=
  let delivery := .execute engine request
  (Session.attend { stage := stage updates answers } delivery).attend delivery

theorem twice_isRun (updates : List Bool) (answers : List PublishResult) :
    (twice updates answers).IsRun := by
  have opened := Session.IsRun.of_empty (stage_honest updates answers) rfl
  exact (opened.attend _ (by simp [Task.job?])).attend _ (by simp [Task.job?])

theorem twice_errand (updates : List Bool) (answers : List PublishResult) : ∃ outcome,
    (twice updates answers).office.errands[0]? =
      some ⟨.execute engine request, .ended outcome⟩ := by
  simp [Session.office, twice, Session.errands_attend]

/-- The platform is busy at first, and then takes the video. -/
def busy : List PublishResult :=
  [.rateLimited "slow down", .published "video-1" "https://video.test/1"]

/-- The request for the retry of the one that came while the platform was busy. -/
def retry : Request where
  eventId := ⟨"event-2"⟩
  userId := user
  contentId := request.contentId
  accountId := account.id
  platform := "YOUTUBE"
  scheduledAt := morning
  postType := some "POST"
  idempotencyKey := some "key-1#attempt-1"
  attempt := 1
  maxRetries := some 3

/-- The first delivery is published and stores its post, but cannot move the row on; the second one
is refused by the platform. -/
def halfRecorded : Session :=
  twice [true, false] [.published "video-1" "https://video.test/1", .rejected "duplicate upload"]

end Cast

end Rehearsal

end Syndication
