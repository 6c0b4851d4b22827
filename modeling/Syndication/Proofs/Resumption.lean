import Syndication.Proofs.Alone
import Syndication.Proofs.Redelivery

namespace Syndication

/-- Ends are told of jobs that were ended here. -/
def Deed.OwnsEnds (deeds : List Deed) : Prop :=
  ∀ envelope ∈ envelopes deeds, envelope.tellsEnd = true →
    ∃ row, .ended row ∈ deeds ∧ envelope.aggregateId = row.id.text

namespace Deed.OwnsEnds

variable {deeds more : List Deed} {row : Job} {event : Event} {taken : Bool}

theorem append (owns : OwnsEnds deeds) (new : ∀ envelope ∈ envelopes more,
      envelope.tellsEnd = true → ∃ row, .ended row ∈ deeds ++ more ∧
        envelope.aggregateId = row.id.text) : OwnsEnds (deeds ++ more) := by
  intro envelope member tells
  rw [envelopes_append] at member
  rcases List.mem_append.1 member with old | last
  · obtain ⟨row, ended, same⟩ := owns envelope old tells
    exact ⟨row, List.mem_append_left _ ended, same⟩
  · exact new envelope last tells

theorem nil : OwnsEnds [] := by simp [OwnsEnds]

theorem ended (owns : OwnsEnds deeds) (job : Job) : OwnsEnds (deeds ++ [.ended job]) :=
  owns.append (by simp)

theorem asks (owns : OwnsEnds deeds) (asked : ∀ deed ∈ more, deed.IsAsked) :
    OwnsEnds (deeds ++ more) :=
  owns.append (by simp [envelopes_asks asked])

/-- The end of a job may be told by who ended it, and other events by anybody. -/
theorem told (owns : OwnsEnds deeds) (forRow : event.jobId = row.id)
    (own : .ended row ∈ deeds ∨ (Announcement.envelope row event).tellsEnd = false) :
    OwnsEnds (deeds ++ [.announced row event taken]) := by
  refine owns.append fun envelope member tells => ?_
  obtain rfl := List.mem_singleton.1 member
  rcases own with ended | other
  · exact ⟨row, List.mem_append_left _ ended, congrArg JobId.text forRow⟩
  · simp [other] at tells

end Deed.OwnsEnds

namespace Engine

/-- What a delivery of the request has left of the rows of jobs as long as it has ended none. They
are as they were; or a pending row of the request is new behind them; or the pending row that the
key of the request stands for has its start stamp. -/
inductive Resumable (engine : Engine) (request : Request) (s t : Stores) : Prop
  | kept : t.jobs.rows = s.jobs.rows → Resumable engine request s t
  | added {job id now} : t.jobs.rows = s.jobs.rows ++ [job] →
      (∀ row ∈ s.jobs.rows, row.id ≠ job.id) →
      job.IsStamped (Job.ofRequest request engine.retryBudget id now) →
      Resumable engine request s t
  | stamped {row job} : row ∈ s.jobs.rows → row.status = .pending →
      request.idempotencyKey.isSome = true → row.idempotencyKey = request.idempotencyKey →
      row.matchesRequest request = true → job.IsStamped row →
      t.jobs.rows = JobStore.replace job s.jobs.rows → Resumable engine request s t

variable {engine : Engine} {request : Request} {s t u : Stores} {job started : Job}

theorem Resumable.of_jobs_eq (resumable : engine.Resumable request s t) (same : u.jobs = t.jobs) :
    engine.Resumable request s u := by
  cases resumable with
  | kept rows => exact .kept (same ▸ rows)
  | added rows apart stamped => exact .added (same ▸ rows) apart stamped
  | stamped member pending some key fits stamped rows =>
    exact .stamped member pending some key fits stamped (same ▸ rows)

/-- Nothing came to its end. -/
theorem Resumable.finished (resumable : engine.Resumable request s t) {row : Job}
    (member : row ∈ t.jobs.rows) (finished : row.isTerminal = true) : row ∈ s.jobs.rows := by
  cases resumable with
  | kept rows => exact rows ▸ member
  | added rows _ stamped =>
    rcases (by simpa [rows] using member) with old | rfl
    · exact old
    · exact absurd stamped.status_eq (Job.isTerminal_iff.1 finished)
  | stamped _ pending _ _ _ stamped rows =>
    rcases JobStore.mem_replace (rows ▸ member) with rfl | old
    · exact absurd (stamped.status_eq.trans pending) (Job.isTerminal_iff.1 finished)
    · exact old

end Engine

namespace Ledger

variable {engine : Engine} {request : Request} {s t u : Stores} {job started : Job}

theorem Opened.resumable (opened : Opened engine.retryBudget request s job t) :
    engine.Resumable request s t := by
  rcases opened.origin with ⟨_, kept⟩ | ⟨grown, id, now, rfl⟩
  · exact .kept (congrArg JobStore.rows kept)
  · exact .added grown.rows grown.apart (.refl _)

theorem Started.resumable (start : Started t job started u)
    (opened : Opened engine.retryBudget request s job t) (pending : job.status = .pending) :
    engine.Resumable request s u := by
  rcases start.rows with ⟨kept, _⟩ | replaced
  · exact opened.resumable.of_jobs_eq kept
  · have sameId := Job.id_eq_of_work_eq start.stamped.work_eq
    rcases opened.origin with ⟨some, kept⟩ | ⟨grown, id, now, rfl⟩
    · rw [kept] at replaced
      have member : job ∈ s.jobs.rows := kept ▸ JobStore.mem_of_find? opened.found
      exact .stamped member pending some opened.key opened.fits start.stamped replaced
    · -- the new row is the only one that is replaced
      have apart : ∀ row ∈ s.jobs.rows, row.id ≠ started.id := sameId ▸ grown.apart
      refine .added ?_ apart start.stamped
      have others := JobStore.replace_of_apart apart
      rw [JobStore.replace] at others replaced
      rw [replaced, grown.rows, List.map_append, others]
      simp [sameId]

end Ledger

namespace Engine

open Syndication.Action Program

variable {engine : Engine} {request : Request} {s t : Stores} {job : Job} {α : Type}
  {Q : Stores → Prop} {past : List Deed}

/-- Where an execution stands that is alone: unless it has ended a job, the stores are as `Q` says,
and it has told of no end but its own. -/
def Solo (Q : Stores → Prop) (deeds : List Deed) (_ : Stand (Except PublishError α)) (t : Stores) :
    Prop :=
  ((∀ row, .ended row ∉ deeds) → Q t) ∧ Deed.OwnsEnds deeds

theorem solo_of_ended {stand : Stand (Except PublishError α)} (ended : .ended job ∈ past)
    (owns : Deed.OwnsEnds past) : Solo Q past stand t :=
  ⟨fun none => absurd ended (none job), owns⟩

/-- Who has ended a job may tell anything of it. -/
theorem solo_of_tryAnnounce {announcement : Action Records α} {about : Event → Prop}
    {f : Bool → Action Services Execution} (ended : .ended job ∈ past) (owns : Deed.OwnsEnds past)
    (tells : announcement.Does .solitary Deed.ofRecord? (Tells job about past) past t)
    (next : ∀ event taken u, .ended job ∈ past ++ [.announced job event taken] →
      Deed.OwnsEnds (past ++ [.announced job event taken]) →
      (f taken).Does (.alone Stores.Replies) Deed.of? (Solo Q)
        (past ++ [.announced job event taken]) u) :
    (tryAnnounce announcement >>= f).Does (.alone Stores.Replies) Deed.of? (Solo Q) past t := by
  refine does_of_tryAnnounce tells (fun _ => solo_of_ended ended owns)
    fun event taken u forJob _ => ?_
  exact next event taken u (List.mem_append_left _ ended) (owns.told forJob (.inl ended))

section

variable (kept : ∀ {u : Stores}, u.jobs = t.jobs → Q u) (owns : Deed.OwnsEnds past)
include kept owns

/-- Work on the records that is not seen, and what is done with its value. -/
theorem solo_of_silent {work : Action Records α} {post : α → Stores → Prop}
    {f : α → Action Services Execution} (silent : work.CallsOnly RecordCall.IsSilent)
    (leaves : work.Does .solitary Deed.ofRecord? (Leaves t.jobs post) past t)
    (next : ∀ value u, post value u →
      (f value).Does (.alone Stores.Replies) Deed.of? (Solo Q) past u) :
    (work.toServices >>= f).Does (.alone Stores.Replies) Deed.of? (Solo Q) past t := by
  refine ((Ledger.unseen_of_silent silent).and leaves).toServices.bind
    (fun now stand last u broken is => ?_) fun now value u is => ?_
  · obtain ⟨rfl, same⟩ := is
    have same : u.jobs = t.jobs := by cases broken <;> exact same
    exact ⟨fun _ => kept same, owns⟩
  · obtain ⟨rfl, reached⟩ := is
    exact next value u reached

/-- A move of a job to its end, and what is done after it. -/
theorem solo_of_move {work : Action Records α} {moved? : α → Option Job} {post : α → Stores → Prop}
    {f : α → Action Services Execution}
    (moves : work.Does .solitary Deed.ofRecord? (Moves moved? past) past t)
    (leaves : work.Does .solitary Deed.ofRecord? (Leaves t.jobs post) past t)
    (next : ∀ answer u, post answer u → (f answer).Does (.alone Stores.Replies) Deed.of? (Solo Q)
      (past ++ (moved? answer).toList.map .ended) u) :
    (work.toServices >>= f).Does (.alone Stores.Replies) Deed.of? (Solo Q) past t := by
  refine (moves.and leaves).toServices.bind (fun now stand last u broken is => ?_)
    fun now answer u is => ?_
  · obtain ⟨moved, same⟩ := is
    obtain rfl : now = past := by cases broken <;> exact moved
    have same : u.jobs = t.jobs := by cases broken <;> exact same
    exact ⟨fun _ => kept same, owns⟩
  · obtain ⟨moved, reached⟩ := is
    obtain rfl : now = past ++ (moved? answer).toList.map Deed.ended := moved
    exact next answer u reached

variable (found : t.jobs.find? job.id = some job) (pending : job.status = .pending)
include found pending

theorem completeFailure_solo (kind : FailureKind) (message : String) :
    (completeFailure job kind message).Does (.alone Stores.Replies) Deed.of? (Solo Q) past t := by
  unfold completeFailure
  refine solo_of_move kept owns (Ledger.fail_does job _) (Ledger.fail_leaves found pending _)
    fun answer u moved => ?_
  obtain ⟨row, isNew⟩ := answer
  obtain rfl : isNew = true := moved
  have ended : Deed.ended row ∈ past ++ [.ended row] := by simp
  refine solo_of_tryAnnounce ended (owns.ended row) (Announcement.failed_tells row kind _)
    fun event taken v ended owns => ?_
  split
  · refine solo_of_tryAnnounce ended owns (Announcement.retryRequested_tells row _)
      fun retry asked w ended owns => ?_
    exact .pure (solo_of_ended ended owns)
  · exact .pure (solo_of_ended ended owns)

theorem completeSuccess_solo (result : PublishResult) :
    (completeSuccess job result).Does (.alone Stores.Replies) Deed.of? (Solo Q) past t := by
  unfold completeSuccess
  refine solo_of_move kept owns (Ledger.succeed_does job result)
    (Ledger.succeed_leaves found pending result) fun answer u moved => ?_
  obtain ⟨row, post⟩ := answer
  cases post with
  | none =>
    obtain ⟨same, left⟩ : row = job ∧ u.jobs = t.jobs := moved rfl
    subst same
    simp only [reportStored, pending]
    exact .pure ⟨fun _ => kept left, by simpa using owns⟩
  | some post =>
    have ended : Deed.ended row ∈ past ++ [.ended row] := by simp
    refine solo_of_tryAnnounce ended (owns.ended row) (Announcement.succeeded_tells row post)
      fun event taken v ended owns => ?_
    exact .pure (solo_of_ended ended owns)

theorem complete_solo (outcome : Except PublishError PublishResult) :
    (complete job outcome).Does (.alone Stores.Replies) Deed.of? (Solo Q) past t := by
  cases outcome with
  | error error => exact completeFailure_solo kept owns found pending _ _
  | ok result =>
    simp only [complete]
    split
    · exact completeSuccess_solo kept owns found pending result
    · exact completeFailure_solo kept owns found pending _ _

end

/-- What is done with a started job. -/
theorem attempt_solo (kept : ∀ {u : Stores}, u.jobs = t.jobs → Q u)
    (found : t.jobs.find? job.id = some job) (pending : job.status = .pending) :
    ((Announcement.started job).toServices >>= fun _ =>
      Action.always (engine.attempt job request).run >>= complete job).Does
        (.alone Stores.Replies) Deed.of? (Solo Q) [] t := by
  have owns {start : StartedEvent} {taken : Bool} (forJob : start.jobId = job.id) :
      Deed.OwnsEnds ([] ++ [.announced job (.started start) taken]) :=
    Deed.OwnsEnds.nil.told forJob (.inr rfl)
  refine ((Announcement.started_tells job).and (Announcement.started_leaves job)).toServices.bind
    (fun now stand last u broken is => ?_) fun now event u is => ?_
  · obtain ⟨tells, same⟩ := is
    have same : u.jobs = t.jobs := by cases broken <;> exact same
    refine ⟨fun _ => kept same, ?_⟩
    cases broken with
    | underway =>
      obtain rfl : now = [] := tells
      exact .nil
    | overflown => cases tells
    | failed error =>
      obtain ⟨event, forJob, ⟨start, rfl⟩, rfl⟩ := tells
      exact owns forJob
  obtain ⟨⟨event, forJob, ⟨start, rfl⟩, rfl⟩, same⟩ := is
  obtain rfl : u = t := same
  refine .always_bind ((engine.attempt_does job request).and
    ⟨still_of_outside id (engine.attempt_yields job request).meets⟩).does (fun now v is => ?_)
    (fun now v is => ?_) fun now outcome v is => ?_
  · obtain ⟨⟨asks, rfl, asked, _⟩, rfl⟩ := is
    exact ⟨fun _ => kept rfl, (owns forJob).asks asked⟩
  · obtain ⟨⟨asks, rfl, asked, _⟩, rfl⟩ := is
    exact ⟨fun _ => kept rfl, (owns forJob).asks asked⟩
  · obtain ⟨⟨asks, rfl, asked, _⟩, rfl⟩ := is
    exact complete_solo kept ((owns forJob).asks asked) found pending outcome

theorem carryOut_solo (opened : Ledger.Opened engine.retryBudget request s job t) :
    (engine.carryOut request job).Does (.alone Stores.Replies) Deed.of?
      (Solo (engine.Resumable request s)) [] t := by
  unfold carryOut
  split
  · exact .pure ⟨fun _ => opened.resumable, .nil⟩
  · rename_i unfinished
    have pending : job.status = .pending := by
      by_contra other
      exact unfinished (Job.isTerminal_iff.2 other)
    refine solo_of_silent (fun same => opened.resumable.of_jobs_eq same) .nil
      (Ledger.start_silent job) (Ledger.start_leaves opened.found pending) fun row u started => ?_
    have resumable : engine.Resumable request s u := started.resumable opened pending
    have pending : row.status = .pending := started.stamped.status_eq.trans pending
    simp only [Job.isTerminal_eq_false pending]
    exact attempt_solo (fun same => resumable.of_jobs_eq same) started.found pending

theorem execute_solo (sound : s.Sound) : (engine.execute request).Does (.alone Stores.Replies)
    Deed.of? (Solo (engine.Resumable request s)) [] s := by
  rw [execute_eq]
  exact solo_of_silent (fun same => .kept (congrArg JobStore.rows same)) .nil
    (Ledger.openJob_silent _ request) (Ledger.openJob_leaves sound)
    fun job t opened => carryOut_solo opened

/-- What was opened for the request is still there when the execution is over, and the execution
answers no other job. -/
theorem Resolves.opened {calls : List Services.Exchange} {id : JobId}
    {rest : Program Services (Except PublishError Execution)}
    (resolves : engine.Resolves request calls id) (sound : s.Sound)
    (plays : (engine.execute request).run.Plays Stores.Replies s calls rest t) :
    ∃ job u, job.id = id ∧ Ledger.Opened engine.retryBudget request s job u ∧ u.Later t ∧
      ∀ execution, rest = .done (.ok execution) → execution.job.id = id := by
  obtain ⟨first, second, job, rfl, rfl, follows⟩ := resolves
  rw [execute_eq, Action.run_bind] at plays
  obtain ⟨u, begun, goesOn⟩ := plays.split_bind follows
  have opens : (Ledger.openJob engine.retryBudget request).toServices.Does
      (.alone Stores.Replies) Deed.of? (Leaves s.jobs (Ledger.Opened engine.retryBudget request s))
      [] s := (Ledger.openJob_leaves sound).toServices
  have opened : Ledger.Opened engine.retryBudget request s job u := opens.does.goes begun.goes
  have contract : (Ledger.openJob engine.retryBudget request).toServices.Ensures
      (.publishing False) _ s := (Ledger.openJob_ensures sound _ request).toServices
  have soundU := (contract.meets.plays sound begun).1
  have carries : (engine.carryOut request job).Ensures (.publishing False) _ u :=
    carryOut_ensures soundU engine request (Stores.holds_of_find? opened.found)
  obtain ⟨_, later, reports⟩ := carries.meets.plays soundU goesOn
  refine ⟨job, u, rfl, opened, later, ?_⟩
  rintro execution rfl
  exact (reports execution rfl).1

/-- Whoever executes the request next, on records that work, opens this job once more, and answers
no other. -/
def Resumes (request : Request) (s : Stores) (id : JobId) : Prop :=
  ∀ (engine : Engine) calls rest t,
    (engine.execute request).run.Plays Stores.Serves s calls rest t → rest.IsOver →
    engine.Resolves request calls id ∧
      ∀ execution, rest = .done (.ok execution) → execution.job.id = id

/-- A request with a key comes back to the job that was opened for it. -/
theorem Resolves.resumes {calls : List Services.Exchange} {id : JobId}
    {rest : Program Services (Except PublishError Execution)}
    (resolves : engine.Resolves request calls id) (sound : s.Sound)
    (plays : (engine.execute request).run.Plays Stores.Replies s calls rest t)
    (keyed : request.idempotencyKey.isSome = true) : Resumes request t id := by
  obtain ⟨key, has⟩ := Option.isSome_iff_exists.1 keyed
  obtain ⟨job, u, rfl, opened, later, _⟩ := resolves.opened sound plays
  have contract : (engine.execute request).Ensures (.publishing False) _ s :=
    execute_ensures sound engine request
  have soundT := (contract.meets.plays sound plays).1
  obtain ⟨row, found, same, _⟩ := later.row opened.found
  have rowHas : row.idempotencyKey = some key := by
    rw [← has, ← opened.key]
    simpa using congrArg Job.idempotencyKey same
  have fits : row.matchesRequest request = true := by
    rw [← opened.fits]
    simpa using congrArg (Job.matchesRequest · request) same
  have sameId := Job.id_eq_of_work_eq same
  have byKey := soundT.findByKey?_eq (JobStore.mem_of_find? found) rowHas
  intro again calls rest u plays isOver
  obtain ⟨first, second, parts, follows, _⟩ :=
    comes_back opened.valid has byKey fits plays isOver
  have resolves : again.Resolves request calls job.id :=
    ⟨first, second, row, parts, sameId, follows⟩
  obtain ⟨_, _, _, _, _, answers⟩ := resolves.opened soundT (plays.mono Stores.Serves.replies)
  exact ⟨resolves, answers⟩

end Engine

/-- An execution that comes to an error has ended no job, and has told at most a start. -/
theorem Course.of_error {s : Stores} {deeds : List Deed} {error : PublishError}
    (course : Course s deeds (.ended (.error error))) : (∀ row, .ended row ∉ deeds) ∧
      ∀ envelope ∈ Deed.envelopes deeds, envelope.eventType = "publish.started.v1" := by
  cases course with
  | untold _ => exact ⟨by simp, by simp⟩
  | refused _ _ => exact ⟨by simp, by simp [Event.typeName]⟩
  | accepted _ _ asked closes =>
    cases closes with
    | broken _ =>
      refine ⟨fun row member => ?_, ?_⟩
      · rw [List.append_nil] at member
        obtain impossible | member := List.mem_cons.1 member
        · cases impossible
        · obtain ⟨result, impossible⟩ := asked _ member
          cases impossible
      · simp [Deed.envelopes_asks asked, Event.typeName]

namespace Office

/-- An execution that comes to an error can be resumed. Take any run of an office from its
beginning, with any tasks, any order of calls and any answers and faults, and then an execution that
no other task overlaps. If it comes to an error, no row has come to its end, and only a start was
told. The rows are as they were; or a pending row of the request is new behind them; or the pending
row that its key stands for has its start stamp. And if the request has a key and a job was opened
for it, whoever executes it next, on records that work, opens the same job and answers no other. -/
theorem error_resumable {past : OfficeLog} {office : Office} (reached : Runs {} past office)
    {engine : Engine} {request : Request} {calls : List Services.Exchange} {error : PublishError}
    {t : Stores} (plays : (engine.execute request).run.Plays Stores.Replies office.stores calls
      (.done (.error error)) t) :
    (∀ row ∈ t.jobs.rows, row.isTerminal = true → row ∈ office.stores.jobs.rows) ∧
    (∀ envelope answer, ⟨.records (.send envelope), answer⟩ ∈ calls →
      envelope.eventType = "publish.started.v1") ∧
    engine.Resumable request office.stores t ∧
    (request.idempotencyKey.isSome = true → ∀ id, engine.Resolves request calls id →
      Engine.Resumes request t id) := by
  have sound := (reached.sound .empty).1.stores
  have contract : (engine.execute request).Ensures (.publishing False) _ office.stores :=
    Engine.execute_ensures sound engine request
  have course := (Engine.execute_does sound engine request).does.goes
    (plays.goes_of_meets contract.meets sound)
  obtain ⟨unended, told⟩ := Course.of_error course
  have solo := (Engine.execute_solo sound).does.goes plays.goes
  have resumable : engine.Resumable request office.stores t := solo.1 unended
  refine ⟨fun row member finished => resumable.finished member finished, ?_, resumable,
    fun keyed id resolves => resolves.resumes sound plays keyed⟩
  intro envelope answer sent
  refine told envelope (List.mem_filterMap.2 ⟨.told envelope answer.toBool, ?_, rfl⟩)
  exact List.mem_filterMap.2 ⟨_, sent, rfl⟩

end Office

namespace Rehearsal

/-- What a delivery on a stage resolves to. -/
theorem Stage.resolves {stage : Stage} (honest : stage.Honest) {engine : Engine}
    {request : Request} {job : Job}
    (opened : (stage.act (Ledger.openJob engine.retryBudget request).toServices).1 =
      some (.ok job)) :
    engine.Resolves request ((engine.execute request).run.transcript Stage.perform stage)
      job.id := by
  rw [Engine.execute_eq, Action.run_bind, Program.transcript_bind]
  exact ⟨_, _, job, rfl, rfl, (Stage.act_plays honest opened).1.follows⟩

end Rehearsal

open Rehearsal in
/-- The platform is busy when the request is delivered, and the failure cannot be stored. The job is
left pending, and the next delivery publishes it. -/
theorem Office.error_resumable_busy : ∃ calls error t id,
    (Cast.engine.execute Cast.request).run.Plays Stores.Replies {} calls (.done (.error error)) t ∧
    Cast.engine.Resolves Cast.request calls id ∧
    (∃ row ∈ t.jobs.rows, row.status = .pending ∧ row.startedAt.isSome = true) ∧
    Cast.engine.Resumable Cast.request {} t ∧
    ∃ again execution u, (Cast.engine.execute Cast.request).run.Plays Stores.Serves t again
      (.done (.ok execution)) u ∧ execution.job.id = id ∧ execution.job.status = .success := by
  have honest : (Cast.stage [true, false] Cast.busy).Honest :=
    Cast.stage_honest [true, false] Cast.busy
  obtain ⟨error, failed⟩ : ∃ error, ((Cast.stage [true, false] Cast.busy).act
      (Cast.engine.execute Cast.request)).1 = some (.error error) :=
    Program.exists_error (by decide +kernel)
  obtain ⟨job, opened, _⟩ : ∃ job, ((Cast.stage [true, false] Cast.busy).act
      (Ledger.openJob Cast.engine.retryBudget Cast.request).toServices).1 = some (.ok job) ∧ true :=
    Program.exists_ok (fun _ => true) (by decide +kernel)
  obtain ⟨execution, published, success⟩ : ∃ execution,
      ((Cast.delivered [true, false] Cast.busy).act
        (Cast.engine.execute Cast.request)).1 = some (.ok execution) ∧
      decide (execution.job.status = .success) = true :=
    Program.exists_ok _ (by decide +kernel)
  obtain ⟨plays, still⟩ := Stage.act_plays honest failed
  have resolves := Stage.resolves honest opened
  obtain ⟨_, _, resumable, resumes⟩ := error_resumable .refl plays
  have left : ∃ row ∈ (Cast.delivered [true, false] Cast.busy).stores.jobs.rows,
      row.status = .pending ∧ row.startedAt.isSome = true := by
    decide +kernel
  have again := Stage.act_serves still published (by decide +kernel)
  exact ⟨_, error, _, job.id, plays, resolves, left, resumable, _, execution, _, again,
    (resumes rfl job.id resolves Cast.engine _ _ _ again trivial).2 execution rfl,
    of_decide_eq_true success⟩

end Syndication
