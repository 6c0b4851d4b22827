import Syndication.Proofs.Opening
import Syndication.Proofs.Rehearsal

namespace Syndication

namespace Draft

def job? : Draft → Option Job
  | .inserted job => some job
  | _ => none

variable {budget : UInt32} {request : Request} {drafts : List Draft} {job : Job}

theorem Of.drew_of_inserted (of : Draft.Of budget request drafts)
    (member : .inserted job ∈ drafts) :
    ∃ id, drafts = [.drew id, .inserted job] ∧ job.id = ⟨id⟩ := by
  cases of with
  | nothing => cases member
  | inserted =>
    obtain rfl : job = _ := by simpa using member
    exact ⟨_, rfl, rfl⟩
  | _ => simp at member

theorem Of.drew_of_refused (of : Draft.Of budget request (drafts ++ [.refused job])) :
    ∃ id, drafts = [.drew id] ∧ job.id = ⟨id⟩ := by
  generalize same : drafts ++ [Draft.refused job] = all at of
  cases of with
  | nothing => simp at same
  | drew => simp [List.append_eq_singleton_iff] at same
  | @inserted id now =>
    have last : drafts ++ [Draft.refused job] = [Draft.drew id] ++ [_] := same
    cases (List.append_inj' last rfl).2
  | @refused id now =>
    have last : drafts ++ [Draft.refused job] = [Draft.drew id] ++ [_] := same
    obtain ⟨rfl, here⟩ := List.append_inj' last rfl
    cases here
    exact ⟨id, rfl, rfl⟩

end Draft

def ServiceCall.IsOpening : ServiceCall → Prop
  | .records c => c.IsOpening
  | _ => False

/-- The job that a call inserted. -/
def insertion? : Services.Exchange → Option Job
  | ⟨.records (.insertJob job), .ok _⟩ => some job
  | _ => none

theorem insertion?_eq (exchange : Services.Exchange) :
    insertion? exchange = (Draft.of? exchange).bind Draft.job? := by
  obtain ⟨c, answer⟩ := exchange
  cases c with
  | records c =>
    cases c with
    | insertJob job => cases answer <;> rfl
    | _ => rfl
  | _ => rfl

namespace OfficeLog

def inserted (log : OfficeLog) : List Job := log.filterMap fun entry => insertion? entry.2

def insertedBy (log : OfficeLog) (i : Nat) : List Job := (log.of i).filterMap insertion?

def drafts (log : OfficeLog) (i : Nat) : List Draft := (log.of i).filterMap Draft.of?

/-- The identifiers that were given out. -/
def drawn (log : OfficeLog) : List Uuid :=
  log.filterMap fun
    | (_, ⟨.records .freshId, id⟩) => some id
    | _ => none

variable {log : OfficeLog} {i : Nat} {id : Uuid} {job : Job}

theorem insertedBy_eq (log : OfficeLog) (i : Nat) :
    log.insertedBy i = (log.drafts i).filterMap Draft.job? := by
  rw [insertedBy, drafts, List.filterMap_filterMap]
  congr 1
  exact funext insertion?_eq

theorem drew_mem_drafts : .drew id ∈ log.drafts i ↔ (i, ⟨.records .freshId, id⟩) ∈ log := by
  simp only [drafts, List.mem_filterMap, mem_of]
  constructor
  · rintro ⟨⟨c, answer⟩, member, is⟩
    cases c with
    | records c =>
      cases c with
      | freshId => cases is; exact member
      | insertJob job => cases answer <;> cases is
      | _ => cases is
    | _ => cases is
  · exact fun member => ⟨_, member, rfl⟩

theorem drawn_of_mem (member : (i, ⟨.records .freshId, id⟩) ∈ log) : id ∈ log.drawn :=
  List.mem_filterMap.2 ⟨_, member, rfl⟩

theorem inserted_snoc (log : OfficeLog) (i : Nat) (exchange : Services.Exchange) :
    inserted (log ++ [(i, exchange)]) = log.inserted ++ (insertion? exchange).toList := by
  cases is : insertion? exchange <;> simp [inserted, is]

theorem inserted_mem_drafts (member : job ∈ log.inserted) : ∃ i, .inserted job ∈ log.drafts i := by
  obtain ⟨⟨i, exchange⟩, inLog, is⟩ := List.mem_filterMap.1 member
  rw [insertion?_eq] at is
  obtain ⟨draft, drafted, is⟩ := Option.bind_eq_some_iff.1 is
  cases draft with
  | inserted other =>
    cases is
    exact ⟨i, List.mem_filterMap.2 ⟨exchange, mem_of.2 inLog, drafted⟩⟩
  | _ => cases is

end OfficeLog

namespace Program

variable {I : Interface} {α σ : Type}

theorem Goes.follows {scene : Scene I σ} {p q : Program I α} {log : List I.Exchange} {s t : σ}
    (goes : p.Goes scene s log q t) : p.Follows log q := by
  induction goes with
  | stop => exact .stop _
  | call _ _ _ ih => exact .call ih

/-- Where nothing can be told from the answers, any calls may have been made. -/
theorem Follows.goes {scene : Scene I σ} {p q : Program I α} {log : List I.Exchange} {s : σ}
    (follows : p.Follows log q) (still : scene.moves s s)
    (any : ∀ c a, scene.around s c a s) : p.Goes scene s log q s := by
  induction follows with
  | stop => exact .stop _ _
  | call _ ih => exact .call still (any _ _) ih

end Program

/-- Records that may answer anything. -/
def Scene.any : Scene Records Unit := ⟨fun _ _ _ _ => True, fun _ _ => True⟩

theorem Scene.any_around (c : ServiceCall) (answer : c.Answer) :
    Scene.any.withServices.around () c answer () := by
  cases c with
  | records c => trivial
  | _ => rfl

namespace Task

open Syndication.Action

variable {budget : UInt32} {request : Request}

/-- Whatever the calls that open a job were answered, they left drafts of it. -/
theorem drafts_of_follows {log : List Services.Exchange}
    {rest : Program Services (Except PublishError Reply)}
    (follows : (openJob budget request).action.run.Follows log rest) :
    Draft.Of budget request (log.filterMap Draft.of?) := by
  have drafts : (Ledger.openJob budget request).Does Scene.any Draft.ofRecord?
      (fun drafts _ _ => Draft.Of budget request drafts) [] () := Ledger.openJob_drafts
  have all : (openJob budget request).action.Does Scene.any.withServices Draft.of?
      (fun drafts _ _ => Draft.Of budget request drafts) [] () :=
    Does.bind ⟨drafts.does.through fun _ _ => rfl⟩ (fun _ _ _ _ _ of => of)
      fun _ _ _ of => .pure of
  exact all.does.goes (follows.goes trivial Scene.any_around)

theorem openJob_settles {s : Stores} (valid : request.validate = .ok ()) :
    (openJob budget request).action.Does (Scene.withServices .opening) Draft.of?
      (fun drafts stand t => ∃ earlier, stand = earlier.map (Except.map .opened) ∧
        Ledger.Settles request drafts earlier t) [] s := by
  have settles : (Ledger.openJob budget request).Does .opening Draft.ofRecord?
      (Ledger.Settles request) [] s := Ledger.openJob_settles valid
  refine Does.bind ⟨settles.does.through fun _ _ => rfl⟩ (fun drafts stand now t broken is => ?_)
    fun drafts job t is => ?_
  · cases broken <;> exact ⟨_, rfl, is⟩
  · exact .pure ⟨_, rfl, is⟩

theorem openJob_within : (openJob budget request).action.run.Within 5 :=
  within_bind (n := 0) (Ledger.openJob_within budget request).through fun _ => .done

theorem openJob_opening : (openJob budget request).action.CallsOnly ServiceCall.IsOpening :=
  .bind ⟨Program.Yields.through (Ledger.openJob_opening budget request).meets fun _ is => is⟩
    fun _ => .pure

end Task

namespace Stores

variable {s t : Stores} {c : ServiceCall} {answer : c.Answer}

/-- Among calls that open jobs only an insertion changes the rows. -/
theorem Serves.inserts (served : s.Serves c answer t)
    (opening : c.IsOpening) : insertion? ⟨c, answer⟩ = none ∧ t.jobs = s.jobs ∨
      ∃ job, insertion? ⟨c, answer⟩ = some job ∧ s.jobs.insert job = .ok t.jobs := by
  cases c with
  | records c =>
    cases c with
    | insertJob job =>
      cases answer with
      | ok _ =>
        obtain ⟨⟨jobs, inserted, rfl⟩, _⟩ := served
        exact .inr ⟨job, rfl, inserted⟩
      | error fault =>
        obtain ⟨rfl, _⟩ := served
        exact .inl ⟨rfl, rfl⟩
    | findJobByKey key =>
      cases answer with
      | ok found =>
        obtain ⟨⟨_, rfl⟩, _⟩ := served
        exact .inl ⟨rfl, rfl⟩
      | error fault => exact served.2.elim
    | now | freshId =>
      obtain ⟨rfl, _⟩ := served
      exact .inl ⟨rfl, rfl⟩
    | _ => cases opening
  | _ => cases opening

end Stores

namespace Office

/-- Jobs are opened for valid requests, any number of them at the same time. The records work, and
no identifier is given out twice. -/
inductive Opens (start : Stores) : OfficeLog → Office → Prop
  | begin : Opens start [] ⟨start, []⟩
  | add {log : OfficeLog} {b : Office} (budget : UInt32) {request : Request} : Opens start log b →
      request.validate = .ok () → Opens start log (b.add (.openJob budget request))
  | call {log : OfficeLog} {b : Office} {i : Nat} {task : Task} {c : ServiceCall}
      {next : c.Answer → Program Services (Except PublishError Reply)} {answer : c.Answer}
      {stores : Stores} : Opens start log b → b.errands[i]? = some ⟨task, .call c next⟩ →
      b.stores.Serves c answer stores →
      (∀ id, (⟨c, answer⟩ : Services.Exchange) = ⟨.records .freshId, id⟩ → id ∉ log.drawn) →
      Opens start (log ++ [(i, ⟨c, answer⟩)]) (b.goOn i ⟨task, next answer⟩ stores)

namespace Opens

variable {start : Stores} {log : OfficeLog} {office : Office} {i j : Nat} {id : Uuid}

theorem runs (opens : Opens start log office) : Runs ⟨start, []⟩ log office := by
  induction opens with
  | begin => exact .refl
  | add budget _ _ ih => exact .add _ ih (by simp [Task.job?])
  | call _ here served _ ih => exact .call ih here served.replies

theorem opening (opens : Opens start log office) {errand : Errand}
    (member : errand ∈ office.errands) : ∃ budget request,
      errand.task = .openJob budget request ∧ request.validate = .ok () := by
  induction opens generalizing errand with
  | begin => cases member
  | add budget _ valid ih =>
    rcases List.mem_append.1 member with old | new
    · exact ih old
    · obtain rfl := List.mem_singleton.1 new
      exact ⟨budget, _, rfl, valid⟩
  | call _ here _ _ ih =>
    rcases List.mem_or_eq_of_mem_set member with old | rfl
    · exact ih old
    · have before := ih (List.mem_of_getElem? here)
      exact before

theorem follows (opens : Opens start log office) {errand : Errand}
    (here : office.errands[i]? = some errand) : ∃ budget request,
      request.validate = .ok () ∧ errand.task = .openJob budget request ∧
        (Task.openJob budget request).action.run.Follows (log.of i) errand.rest := by
  obtain ⟨budget, request, same, valid⟩ := opens.opening (List.mem_of_getElem? here)
  exact ⟨budget, request, valid, same, same ▸ opens.runs.follows_since rfl here⟩

theorem call_opening (opens : Opens start log office) {task : Task} {c : ServiceCall}
    {next : c.Answer → Program Services (Except PublishError Reply)} (answer : c.Answer)
    (here : office.errands[i]? = some ⟨task, .call c next⟩) : c.IsOpening := by
  obtain ⟨budget, request, _, _, follows⟩ := opens.follows here
  exact (Program.Yields.follows Task.openJob_opening.meets (follows.snoc answer)).1 ⟨c, answer⟩
    (by simp)

theorem drafts (opens : Opens start log office) {budget : UInt32} {request : Request}
    {rest : Program Services (Except PublishError Reply)}
    (here : office.errands[i]? = some ⟨.openJob budget request, rest⟩) :
    Draft.Of budget request (log.drafts i) :=
  Task.drafts_of_follows (opens.runs.follows_since rfl here)

theorem drafts_of_mem (opens : Opens start log office) {draft : Draft}
    (member : draft ∈ log.drafts i) :
    ∃ budget request, Draft.Of budget request (log.drafts i) := by
  obtain ⟨exchange, inLog, _⟩ := List.mem_filterMap.1 member
  have bound := opens.runs.numbers_lt (OfficeLog.mem_of.1 inLog)
  have here := List.getElem?_eq_getElem bound
  obtain ⟨budget, request, same, _⟩ := opens.opening (List.getElem_mem bound)
  generalize office.errands[i] = errand at here same
  obtain ⟨task, rest⟩ := errand
  obtain rfl : task = .openJob budget request := same
  exact ⟨budget, request, opens.drafts here⟩

/-- The rows are those of the start and then those that were inserted. -/
theorem rows (opens : Opens start log office) :
    office.stores.jobs.rows = start.jobs.rows ++ log.inserted := by
  induction opens with
  | begin => simp [OfficeLog.inserted]
  | add _ _ _ ih => exact ih
  | @call log office i task c next answer stores opens here served _ ih =>
    rw [OfficeLog.inserted_snoc, ← List.append_assoc, ← ih]
    rcases served.inserts (opens.call_opening answer here) with ⟨none, kept⟩ | ⟨job, some, inserted⟩
    · simp [none, goOn, kept]
    · simp [some, goOn, (JobStore.insert_eq_ok inserted).1]

theorem keys (opens : Opens start log office)
    (distinct : (start.jobs.rows.filterMap (·.idempotencyKey)).Nodup) :
    (office.stores.jobs.rows.filterMap (·.idempotencyKey)).Nodup := by
  induction opens with
  | begin => exact distinct
  | add _ _ _ ih => exact ih
  | @call log office i task c next answer stores opens here served _ ih =>
    rcases served.inserts (opens.call_opening answer here) with ⟨_, kept⟩ | ⟨job, _, inserted⟩
    · rw [goOn, kept]
      exact ih
    · exact JobStore.keys_nodup_of_insert inserted ih

theorem drawn_once (opens : Opens start log office) (first : (i, ⟨.records .freshId, id⟩) ∈ log)
    (second : (j, ⟨.records .freshId, id⟩) ∈ log) : i = j := by
  induction opens with
  | begin => cases first
  | add _ _ _ ih => exact ih first second
  | call _ _ _ new ih =>
    rcases List.mem_append.1 first with before | last
    · rcases List.mem_append.1 second with beforeToo | last
      · exact ih before beforeToo
      · cases List.mem_singleton.1 last
        exact absurd (OfficeLog.drawn_of_mem before) (new id rfl)
    · cases List.mem_singleton.1 last
      rcases List.mem_append.1 second with before | last
      · exact absurd (OfficeLog.drawn_of_mem before) (new id rfl)
      · cases List.mem_singleton.1 last
        rfl

theorem drawn_apart (opens : Opens start log office)
    (drew : (i, ⟨.records .freshId, id⟩) ∈ log) : ∀ row ∈ start.jobs.rows, row.id ≠ ⟨id⟩ := by
  induction opens with
  | begin => cases drew
  | add _ _ _ ih => exact ih drew
  | call opens here served _ ih =>
    rcases List.mem_append.1 drew with drew | last
    · exact ih drew
    · cases List.mem_singleton.1 last
      intro row member
      exact served.2 row (opens.rows ▸ List.mem_append_left _ member)

/-- An insertion is refused for nothing but its key. -/
theorem refused_taken (opens : Opens start log office) {task : Task} {job : Job}
    {next : Except ServiceFault Unit → Program Services (Except PublishError Reply)}
    (here : office.errands[i]? = some ⟨task, .call (.records (.insertJob job)) next⟩)
    {fault : ServiceFault} (refused : office.stores.jobs.insert job = .error fault) :
    office.stores.KeyTaken job := by
  obtain ⟨budget, request, _, _, follows⟩ := opens.follows here
  have shape : Draft.Of budget request (log.drafts i ++ [Draft.refused job]) := by
    have drafts := Task.drafts_of_follows (follows.snoc (.error fault))
    rw [List.filterMap_append] at drafts
    exact drafts
  obtain ⟨id, drew, sameId⟩ := shape.drew_of_refused
  have mine : (i, ⟨.records .freshId, id⟩) ∈ log := OfficeLog.drew_mem_drafts.1 (by simp [drew])
  rcases (JobStore.insert_eq_error refused).2 with ⟨row, member, rowId⟩ | taken
  · -- this errand alone drew the identifier, and it has inserted nothing so far
    exfalso
    rw [sameId] at rowId
    rw [opens.rows] at member
    rcases List.mem_append.1 member with old | new
    · exact opens.drawn_apart mine row old rowId
    · obtain ⟨j, inserted⟩ := OfficeLog.inserted_mem_drafts new
      obtain ⟨_, _, of⟩ := opens.drafts_of_mem inserted
      obtain ⟨other, drewOther, otherId⟩ := of.drew_of_inserted inserted
      obtain rfl : id = other := by
        rw [otherId] at rowId
        cases rowId
        rfl
      obtain rfl : i = j :=
        opens.drawn_once mine (OfficeLog.drew_mem_drafts.1 (by simp [drewOther]))
      simp [drew] at drewOther
  · exact taken

/-- An errand goes on among the others as one that opens a job among such. -/
theorem goes (opens : Opens start log office) {errand : Errand}
    (here : office.errands[i]? = some errand) : ∃ s t,
      errand.task.action.run.Goes (Scene.withServices .opening) s (log.of i) errand.rest t ∧
        t.jobs.rows <+: office.stores.jobs.rows := by
  induction opens generalizing errand with
  | begin => simp at here
  | @add log office budget request opens _ ih =>
    by_cases old : i < office.errands.length
    · refine ih ?_
      rwa [Office.add, List.getElem?_append_left old] at here
    · -- the new errand has the next number, and no call in the log has it
      rw [Office.add, List.getElem?_append_right (by omega)] at here
      obtain rfl := List.mem_singleton.1 (List.mem_of_getElem? here)
      rw [opens.runs.no_calls old]
      exact ⟨_, _, .stop _ _, List.prefix_refl _⟩
  | @call log office j task c next answer stores opens there served _ ih =>
    have grown : office.stores.jobs.rows <+: stores.jobs.rows := by
      rcases served.inserts (opens.call_opening answer there) with ⟨_, kept⟩ | ⟨job, _, inserted⟩
      · simp only [kept, List.prefix_refl]
      · rw [(JobStore.insert_eq_ok inserted).1]
        exact List.prefix_append ..
    have around : (Scene.withServices .opening).around office.stores c answer stores := by
      cases c with
      | records c =>
        refine ⟨served, fun job fault is => ?_⟩
        cases is
        exact opens.refused_taken there served.2
      | _ => exact served
    obtain ⟨bound, _⟩ := List.getElem?_eq_some_iff.1 there
    by_cases same : j = i
    · subst same
      obtain rfl : ⟨task, next answer⟩ = errand := by
        simpa [goOn, List.getElem?_set_self bound] using here
      obtain ⟨s, t, goes, onward⟩ := ih there
      refine ⟨s, stores, ?_, List.prefix_refl _⟩
      simpa [OfficeLog.of] using goes.snoc onward around
    · rw [goOn, List.getElem?_set_ne same] at here
      obtain ⟨s, t, goes, onward⟩ := ih here
      refine ⟨s, t, ?_, onward.trans grown⟩
      simpa [OfficeLog.of, same] using goes

end Opens

/-- Jobs that are opened at the same time. Start with any rows no two of which have the same key.
Let any number of valid requests be made into jobs, call by call in any order, by records that work
and identifiers that are given out once. Then no two rows ever have the same key, and the rows are
those of the start and those that were inserted. Each request makes at most five calls. One with a
key comes to the row that is stored under the key, or to a conflict with this row if it is for
something else. One without a key inserts exactly one row, and comes to it. -/
theorem creation_settles {start : Stores} {log : OfficeLog} {office : Office}
    (distinct : (start.jobs.rows.filterMap (·.idempotencyKey)).Nodup)
    (opens : Opens start log office) :
    (office.stores.jobs.rows.filterMap (·.idempotencyKey)).Nodup ∧
    office.stores.jobs.rows = start.jobs.rows ++ log.inserted ∧
    ∀ i budget request rest, office.errands[i]? = some ⟨.openJob budget request, rest⟩ →
      (log.of i).length ≤ 5 ∧ rest ≠ .overflow ∧ ∀ outcome, rest = .done outcome →
        match request.idempotencyKey with
        | some key => ∃ row ∈ office.stores.jobs.rows, row.idempotencyKey = some key ∧
            outcome = if row.matchesRequest request then .ok (.opened row)
              else .error (.idempotencyConflict key row.id)
        | none => ∃ job, outcome = .ok (.opened job) ∧ log.insertedBy i = [job] := by
  refine ⟨opens.keys distinct, opens.rows, fun i budget request rest here => ?_⟩
  obtain ⟨_, _, same, valid⟩ := opens.opening (List.mem_of_getElem? here)
  cases same
  obtain ⟨s, t, goes, grown⟩ := opens.goes here
  obtain ⟨stand, same, settles⟩ := (Task.openJob_settles valid).does.goes goes
  refine ⟨Task.openJob_within.follows goes.follows, ?_, ?_⟩
  · rintro rfl
    cases stand with
    | overflown => exact settles
    | _ => cases same
  · rintro outcome rfl
    cases stand with
    | ended earlier =>
      obtain rfl : outcome = earlier.map .opened := by simpa [Program.stand, Stand.map] using same
      have settles : Ledger.Settles request (log.drafts i) (.ended earlier) t := settles
      cases has : request.idempotencyKey with
      | some key =>
        simp only [Ledger.Settles, has] at settles ⊢
        obtain ⟨row, member, hasKey, rfl⟩ := settles
        refine ⟨row, grown.subset member, hasKey, ?_⟩
        unfold Ledger.reuse
        split <;> rfl
      | none =>
        simp only [Ledger.Settles, has] at settles ⊢
        obtain ⟨id, job, rfl, drafts⟩ := settles
        refine ⟨job, rfl, ?_⟩
        rw [OfficeLog.insertedBy_eq, drafts]
        rfl
    | _ => cases same

end Office

namespace Rehearsal

/-- On an honest stage without planned faults, records that are asked to open jobs work. -/
theorem Stage.perform_opens {c : ServiceCall} {stage : Stage} (honest : stage.Honest)
    (unplanned : stage.plan = []) (opening : c.IsOpening)
    (new : c = .records .freshId → ∀ row ∈ stage.jobs.rows, row.id ≠ ⟨stage.freshId.1⟩) :
    stage.stores.Serves c (stage.perform c).1 (stage.perform c).2.stores ∧
      (stage.perform c).2.plan = [] := by
  have answered := (stage.perform_imitates c honest).1
  cases c with
  | records c =>
    cases c with
    | now => exact ⟨⟨answered, trivial⟩, unplanned⟩
    | freshId => exact ⟨⟨answered, new rfl⟩, unplanned⟩
    | findJobByKey key =>
      simp only [perform, keep, lookJob, atPoint, takeEffect, unplanned, Plan.take] at answered ⊢
      exact ⟨⟨answered, trivial⟩, trivial⟩
    | insertJob job =>
      simp only [perform, keep, insertJob, atPoint, takeEffect, unplanned, Plan.take] at answered ⊢
      cases inserted : stage.jobs.insert job with
      | ok jobs =>
        simp only [inserted] at answered ⊢
        exact ⟨⟨answered, trivial⟩, trivial⟩
      | error fault =>
        simp only [inserted] at answered ⊢
        exact ⟨⟨answered, inserted⟩, trivial⟩
    | _ => cases opening
  | _ => cases opening

namespace Session

/-- In a session jobs are opened for valid requests, and all goes as it should. -/
def IsOpening (session : Session) : Prop :=
  Office.Opens {} session.log session.office ∧ session.stage.Honest ∧ session.stage.plan = []

/-- If the errand is to draw an identifier next, it will be a new one. -/
def drawsNew (session : Session) (i : Nat) : Bool :=
  match session.errands[i]? with
  | some ⟨_, .call (.records .freshId) _⟩ =>
    let id := session.stage.freshId.1
    !session.log.drawn.contains id && session.stage.jobs.rows.all (·.id != ⟨id⟩)
  | _ => true

def turns (session : Session) (order : List Nat) : Session := order.foldl turn session

def drawsNewIn : Session → List Nat → Bool
  | _, [] => true
  | session, i :: order => session.drawsNew i && (session.turn i).drawsNewIn order

variable {session : Session}

theorem tasks_turn (session : Session) (i : Nat) :
    (session.turn i).errands.map (·.task) = session.errands.map (·.task) := by
  unfold turn
  split
  · rename_i task c next here
    have kept : (session.errands.map (·.task))[i]? = some task := by simp [here]
    obtain ⟨bound, same⟩ := List.getElem?_eq_some_iff.1 kept
    subst same
    rw [List.map_set, List.set_getElem_self bound]
  · rfl

theorem tasks_turns (session : Session) (order : List Nat) :
    (session.turns order).errands.map (·.task) = session.errands.map (·.task) := by
  induction order generalizing session with
  | nil => rfl
  | cons i order ih => exact (ih (session.turn i)).trans (session.tasks_turn i)

theorem IsOpening.assign (isOpening : session.IsOpening) (budget : UInt32) {request : Request}
    (valid : request.validate = .ok ()) : (session.assign (.openJob budget request)).IsOpening :=
  ⟨.add budget isOpening.1 valid, isOpening.2⟩

theorem IsOpening.turn (isOpening : session.IsOpening) {i : Nat} (new : session.drawsNew i = true) :
    (session.turn i).IsOpening := by
  obtain ⟨opens, honest, unplanned⟩ := isOpening
  unfold Session.turn
  split
  · rename_i task c next here
    have inOffice : session.office.errands[i]? = some ⟨task, .call c next⟩ := here
    have opening := opens.call_opening (session.stage.perform c).1 inOffice
    have fresh : c = .records .freshId → session.stage.freshId.1 ∉ session.log.drawn ∧
        ∀ row ∈ session.stage.jobs.rows, row.id ≠ ⟨session.stage.freshId.1⟩ := by
      rintro rfl
      simpa [drawsNew, here] using new
    obtain ⟨served, still⟩ := Stage.perform_opens honest unplanned opening fun is => (fresh is).2
    refine ⟨.call opens inOffice served ?_, (session.stage.perform_imitates c honest).2, still⟩
    intro id is
    cases is
    exact (fresh rfl).1
  · exact ⟨opens, honest, unplanned⟩

theorem IsOpening.turns (isOpening : session.IsOpening) {order : List Nat}
    (new : session.drawsNewIn order = true) : (session.turns order).IsOpening := by
  induction order generalizing session with
  | nil => exact isOpening
  | cons i order ih =>
    obtain ⟨here, rest⟩ := Bool.and_eq_true_iff.1 new
    exact ih (isOpening.turn here) rest

end Session

namespace Cast

/-- The request for another platform. -/
def elsewhere : Request := { request with platform := "INSTAGRAM" }

def keyless : Request := { request with idempotencyKey := none }

/-- Three requests with one key, one of which is for something else, and a request without a key.
All look the key up before one of them inserts. -/
def race : Session :=
  let session : Session := { stage := stage [] [] }
  ((((session.assign (.openJob 3 request)).assign (.openJob 3 request)).assign
    (.openJob 3 elsewhere)).assign (.openJob 3 keyless)).turns
      [0, 1, 2, 0, 1, 3, 2, 0, 1, 2, 1, 0, 3, 2, 0, 3, 2]

theorem race_isOpening : race.IsOpening := by
  have begun : Session.IsOpening { stage := stage [] [] } :=
    ⟨.begin, stage_honest [] [], rfl⟩
  refine Session.IsOpening.turns ((((begun.assign 3 ?_).assign 3 ?_).assign 3 ?_).assign 3 ?_) ?_
  all_goals decide +kernel

theorem race_tasks : race.errands.map (·.task) = [.openJob 3 request, .openJob 3 request,
    .openJob 3 elsewhere, .openJob 3 keyless] := Session.tasks_turns _ _

theorem race_errand {i : Nat} {request : Request}
    (begun : (race.errands.map (·.task))[i]? = some (.openJob 3 request)) :
    ∃ outcome, race.office.errands[i]? = some ⟨.openJob 3 request, .done outcome⟩ := by
  have done : race.errands.all (fun errand => match errand.rest with
      | .done _ => true
      | _ => false) = true := by
    decide +kernel
  obtain ⟨⟨task, rest⟩, here, rfl⟩ : ∃ errand, race.errands[i]? = some errand ∧
      errand.task = .openJob 3 request := by simpa using begun
  have isDone := List.all_eq_true.1 done _ (List.mem_of_getElem? here)
  cases rest with
  | done outcome => exact ⟨outcome, here⟩
  | _ => cases isDone

end Cast

end Rehearsal

namespace Office

open Rehearsal in
/-- The second of three requests that race for a key wins. The first one comes to its row, and the
third one, which is for something else, to a conflict with it. -/
theorem creation_settles_race : ∃ log office row job, Opens {} log office ∧
    [0, 1, 2, 3].map (fun i => (log.of i).length) = [5, 4, 5, 3] ∧
    row ∈ office.stores.jobs.rows ∧ log.insertedBy 1 = [row] ∧ log.insertedBy 3 = [job] ∧
    office.errands[0]? = some ⟨.openJob 3 Cast.request, .done (.ok (.opened row))⟩ ∧
    office.errands[1]? = some ⟨.openJob 3 Cast.request, .done (.ok (.opened row))⟩ ∧
    office.errands[2]? = some
      ⟨.openJob 3 Cast.elsewhere, .done (.error (.idempotencyConflict "key-1" row.id))⟩ ∧
    office.errands[3]? = some ⟨.openJob 3 Cast.keyless, .done (.ok (.opened job))⟩ := by
  have opens := Cast.race_isOpening.1
  obtain ⟨_, _, settles⟩ := creation_settles (by simp) opens
  obtain ⟨row, won⟩ : ∃ row, Cast.race.log.insertedBy 1 = [row] := by
    rw [← List.length_eq_one_iff]
    decide +kernel
  have winner : ∀ row ∈ Cast.race.log.insertedBy 1, ∀ other ∈ Cast.race.stage.jobs.rows,
      other.idempotencyKey = some "key-1" → other = row ∧
        other.matchesRequest Cast.request = true ∧
        other.matchesRequest Cast.elsewhere = false := by
    decide +kernel
  have comes {i : Nat} {request : Request} {outcome : Except PublishError Reply}
      (here : Cast.race.office.errands[i]? = some ⟨.openJob 3 request, .done outcome⟩)
      (has : request.idempotencyKey = some "key-1") : row ∈ Cast.race.stage.jobs.rows ∧
        (row.matchesRequest Cast.request = true ∧ row.matchesRequest Cast.elsewhere = false) ∧
        outcome = if row.matchesRequest request then .ok (.opened row)
          else .error (.idempotencyConflict "key-1" row.id) := by
    have settled := (settles i 3 request _ here).2.2 outcome rfl
    simp only [has] at settled
    obtain ⟨other, member, hasKey, is⟩ := settled
    obtain ⟨rfl, fits⟩ := winner row (by simp [won]) other member hasKey
    exact ⟨member, fits, is⟩
  obtain ⟨first, atFirst⟩ := Cast.race_errand (i := 0) (by rw [Cast.race_tasks]; rfl)
  obtain ⟨second, atSecond⟩ := Cast.race_errand (i := 1) (by rw [Cast.race_tasks]; rfl)
  obtain ⟨third, atThird⟩ := Cast.race_errand (i := 2) (by rw [Cast.race_tasks]; rfl)
  obtain ⟨fourth, atFourth⟩ := Cast.race_errand (i := 3) (by rw [Cast.race_tasks]; rfl)
  obtain ⟨member, ⟨fits, unfit⟩, rfl⟩ := comes atFirst rfl
  obtain ⟨_, _, rfl⟩ := comes atSecond rfl
  obtain ⟨_, _, rfl⟩ := comes atThird rfl
  obtain ⟨job, rfl, inserted⟩ := (settles 3 3 Cast.keyless _ atFourth).2.2 fourth rfl
  rw [fits] at atFirst atSecond
  rw [unfit] at atThird
  exact ⟨_, _, row, job, opens, by decide +kernel, member, won, inserted, atFirst, atSecond,
    atThird, atFourth⟩

end Office

end Syndication
