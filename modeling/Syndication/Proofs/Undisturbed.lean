import Syndication.Proofs.EventProtocol
import Syndication.Proofs.Working

namespace Syndication

/-- No retry was asked for. -/
def Deed.Quiet (deeds : List Deed) : Prop :=
  ∀ envelope ∈ envelopes deeds, envelope.eventType ≠ "publish.retry_requested.v1"

theorem Deed.Quiet.append {deeds more : List Deed} (quiet : Quiet deeds) (quietToo : Quiet more) :
    Quiet (deeds ++ more) := by
  intro envelope member
  rw [envelopes_append] at member
  rcases List.mem_append.1 member with old | new
  · exact quiet envelope old
  · exact quietToo envelope new

theorem Deed.quiet_asks {asks : List Deed} (asked : ∀ deed ∈ asks, deed.IsAsked) : Quiet asks := by
  simp [Quiet, envelopes_asks asked]

open Syndication.Action Program

variable {α β : Type} {past : List Deed} {s t : Stores} {row : Job}

section

variable {course : List Deed → Stand (Except PublishError β) → Stores → Prop}

/-- Work on the records that comes to a value is followed by what is done with the value. -/
theorem serves_of_work {work : Action Records α} {f : α → Action Services β}
    {told : List Deed → Stand (Except PublishError α) → Stores → Prop} {post : α → Stores → Prop}
    (does : work.Does .working Deed.ofRecord? told past s)
    (comes : work.Does .working Deed.ofRecord? (Comes post) past s)
    (underway : ∀ now t, course now .underway t)
    (next : ∀ now value t, told now (.ended (.ok value)) t → post value t →
      (f value).Does .serving Deed.of? course now t) :
    (work.toServices >>= f).Does .serving Deed.of? course past s := by
  have both := (does.and comes).toServices
  refine both.bind (fun now stand last t broken is => ?_) fun now value t is =>
    next now value t is.1 is.2
  cases broken with
  | underway => exact underway now t
  | overflown => cases is.2
  | failed error => cases is.2

/-- An announcement that is tried is taken. -/
theorem serves_of_tryAnnounce {announcement : Action Records α} {about : Event → Prop}
    {f : Bool → Action Services β}
    (tells : announcement.Does .working Deed.ofRecord? (Tells row about past) past s)
    (comes : announcement.Does .working Deed.ofRecord? (Comes fun _ t => t = s) past s)
    (underway : ∀ now t, course now .underway t)
    (next : ∀ event, about event →
      (f true).Does .serving Deed.of? course (past ++ [.announced row event true]) s) :
    (Engine.tryAnnounce announcement >>= f).Does .serving Deed.of? course past s := by
  have tried : (Engine.tryAnnounce announcement).Does .serving Deed.of? (fun now stand t =>
      stand = .underway ∨ stand = .ended (.ok true) ∧ t = s ∧
        ∃ event, about event ∧ now = past ++ [.announced row event true]) past s := by
    refine .always (.map ((tells.and comes).toServices.does.weaken fun now stand t is => ?_))
    obtain ⟨told, came⟩ := is
    cases stand with
    | underway => exact .inl rfl
    | overflown => cases came
    | ended outcome =>
      cases outcome with
      | error error => cases came
      | ok value =>
        obtain ⟨event, _, is, same⟩ := told
        exact .inr ⟨rfl, came, event, is, same⟩
  refine tried.bind (fun now stand last t broken is => ?_) fun now taken t is => ?_
  · rcases is with rfl | ⟨rfl, _⟩
    · cases broken
      exact underway now t
    · cases broken
  · rcases is with impossible | ⟨same, rfl, event, is, rfl⟩
    · cases impossible
    · cases same
      exact next event is

end

/-- Calls that go outside leave the stores as they are. -/
theorem still_of_outside {around : Surroundings Services Stores}
    (replies : ∀ {s t c answer}, around s c answer t → s.Replies c answer t)
    {p : Program Services α} {post : α → Prop} (outside : p.Yields ServiceCall.IsOutside post) :
    p.Does (.alone around) Deed.of? (fun _ _ t => t = s) past s := by
  induction p generalizing past with
  | done value => rfl
  | overflow => rfl
  | call c next ih =>
    obtain ⟨here, goesOn⟩ := outside () trivial trivial
    refine ⟨rfl, fun t a u moved answered => ?_⟩
    have kept : u = s := by
      obtain rfl : t = s := moved
      have answered := replies answered
      cases c with
      | records c =>
        cases c with
        | now => exact answered
        | _ => cases here
      | _ => exact answered
    subst kept
    exact ih a (goesOn a () trivial)

namespace Engine

/-- The request has a row of its own, and a retry that was asked for takes up where the row
ended. -/
structure Makes (engine : Engine) (request : Request) (s : Stores) (deeds : List Deed) (row : Job)
    (t : Stores) : Prop where
  grown : s.Grown row t
  made : row.MadeFor engine.retryBudget request
  continued : ∀ envelope ∈ Deed.envelopes deeds,
    envelope.eventType = "publish.retry_requested.v1" → ∃ event : RetryEvent,
      envelope = Announcement.envelope row (.retryRequested event) ∧ event.Continues row ∧
        row.retryCount < row.maxRetries

/-- Where an execution stands that is alone, if all results that publishers came to are
complete. -/
def Undisturbed (engine : Engine) (request : Request) (s : Stores) (deeds : List Deed)
    (stand : Stand (Except PublishError Execution)) (t : Stores) : Prop :=
  (∀ result, .asked (some result) ∈ deeds → result.IsComplete) →
    stand = .underway ∨ ∃ row, engine.Makes request s deeds row t ∧
      (stand = .overflown ∨ ∃ outcome, stand = .ended (.ok ⟨row, outcome⟩) ∧
        outcome ≠ .alreadyCompleted ∧ row.isTerminal = true)

variable {engine : Engine} {request : Request}

theorem Makes.quiet (grown : s.Grown row t) (made : row.MadeFor engine.retryBudget request)
    {deeds : List Deed} (quiet : Deed.Quiet deeds) : engine.Makes request s deeds row t :=
  ⟨grown, made, fun envelope member type => absurd type (quiet envelope member)⟩

section

variable (grown : s.Grown row t) (pending : row.status = .pending)
  (made : row.MadeFor engine.retryBudget request)
  (quiet : Deed.Quiet past)
include grown pending made quiet

theorem completeFailure_undisturbed (kind : FailureKind) (message : String) :
    (completeFailure row kind message).Does .serving Deed.of? (engine.Undisturbed request s)
      past t := by
  unfold completeFailure
  refine serves_of_work (Ledger.fail_does row _) (Ledger.fail_comes grown pending _)
    (fun _ _ _ => .inl rfl) fun now answer u moved contract => ?_
  obtain ⟨failed, isNew⟩ := answer
  obtain ⟨rfl, regrown, same, finished⟩ := contract
  obtain rfl : now = past ++ [Deed.ended failed] := moved
  have made := made.of_work_eq same
  refine serves_of_tryAnnounce (Announcement.failed_tells failed kind _)
    (Announcement.failed_comes failed kind _) (fun _ _ _ => .inl rfl) fun event isFailure => ?_
  obtain ⟨failure, rfl, _⟩ := isFailure
  have quiet : Deed.Quiet (past ++ [Deed.ended failed] ++
      [.announced failed (.failed failure) true]) :=
    (quiet.append (by simp [Deed.Quiet])).append (by simp [Deed.Quiet, Event.typeName])
  split
  · rename_i wanted
    have budget : failed.hasRetryBudget = true := (Bool.and_eq_true_iff.1 wanted).2
    refine serves_of_tryAnnounce (Announcement.retryRequested_tells failed _)
      (Announcement.retryRequested_comes failed _) (fun _ _ _ => .inl rfl) fun event isRetry => ?_
    obtain ⟨retry, rfl, continues⟩ := isRetry
    refine .pure fun _ => .inr ⟨failed, ⟨regrown, made, ?_⟩, .inr ⟨_, rfl, by simp, finished⟩⟩
    intro envelope member type
    rw [Deed.envelopes_append] at member
    rcases List.mem_append.1 member with old | last
    · exact absurd type (quiet envelope old)
    · obtain rfl := List.mem_singleton.1 last
      exact ⟨retry, rfl, continues, by simpa [Job.hasRetryBudget] using budget⟩
  · exact .pure fun _ => .inr ⟨failed, .quiet regrown made quiet, .inr ⟨_, rfl, by simp, finished⟩⟩

theorem completeSuccess_undisturbed {result : PublishResult} (success : result.success = true)
    (complete : result.IsComplete) :
    (completeSuccess row result).Does .serving Deed.of? (engine.Undisturbed request s) past t := by
  unfold completeSuccess
  refine serves_of_work (Ledger.succeed_does row result)
    (Ledger.succeed_comes grown pending success (complete.namesPost success))
    (fun _ _ _ => .inl rfl) fun now answer u moved contract => ?_
  obtain ⟨done, post⟩ := answer
  obtain ⟨posted, regrown, same, finished⟩ := contract
  obtain ⟨post, rfl⟩ := Option.isSome_iff_exists.1 posted
  obtain rfl : now = past ++ [Deed.ended done] := moved
  refine serves_of_tryAnnounce (Announcement.succeeded_tells done post)
    (Announcement.succeeded_comes done post) (fun _ _ _ => .inl rfl) fun event isSuccess => ?_
  obtain ⟨announced, rfl⟩ := isSuccess
  have quiet : Deed.Quiet (past ++ [Deed.ended done] ++
      [.announced done (.succeeded announced) true]) :=
    (quiet.append (by simp [Deed.Quiet])).append (by simp [Deed.Quiet, Event.typeName])
  exact .pure fun _ => .inr ⟨done, .quiet regrown (made.of_work_eq same) quiet,
    .inr ⟨_, rfl, by simp, finished⟩⟩

theorem complete_undisturbed {outcome : Except PublishError PublishResult}
    (came : ∀ result, outcome = .ok result → .asked (some result) ∈ past) :
    (complete row outcome).Does .serving Deed.of? (engine.Undisturbed request s) past t := by
  cases outcome with
  | error error => exact completeFailure_undisturbed grown pending made quiet _ _
  | ok result =>
    simp only [complete]
    split
    · rename_i success
      by_cases complete : result.IsComplete
      · exact completeSuccess_undisturbed grown pending made quiet success complete
      · -- the result stays on record, and not all results are complete then
        refine ⟨(Does.records _ _ _).weaken fun now stand u later all => ?_⟩
        exact absurd (all result (later.subset (came result rfl))) complete
    · exact completeFailure_undisturbed grown pending made quiet _ _

end

/-- An execution that is alone makes a row of its own for a valid request whose key is free. -/
theorem execute_undisturbed (valid : request.validate = .ok ()) (free : s.Free request) :
    (engine.execute request).Does .serving Deed.of? (engine.Undisturbed request s) [] s := by
  have underway {now : List Deed} {u : Stores} : engine.Undisturbed request s now .underway u :=
    fun _ => .inl rfl
  unfold execute
  refine serves_of_work (Ledger.unseen_of_silent (Ledger.openJob_silent _ request))
    (Ledger.openJob_comes _ valid free) (fun _ _ => underway) fun now job t same opened => ?_
  obtain rfl : now = [] := same
  obtain ⟨grown, made, pending⟩ := opened
  simp only [Job.isTerminal_eq_false pending]
  refine serves_of_work (Ledger.unseen_of_silent (Ledger.start_silent job))
    (Ledger.start_comes grown pending) (fun _ _ => underway) fun now row u same started => ?_
  obtain rfl : now = [] := same
  obtain ⟨grown, sameWork, pending⟩ := started
  have made := made.of_work_eq sameWork
  simp only [Job.isTerminal_eq_false pending]
  refine serves_of_work (Announcement.started_tells row) (Announcement.started_comes row)
    (fun _ _ => underway) fun now event v told still => ?_
  obtain ⟨_, _, ⟨start, rfl⟩, rfl⟩ := told
  obtain rfl := still
  have quiet : Deed.Quiet ([] ++ [Deed.announced row (.started start) true]) := by
    simp [Deed.Quiet, Event.typeName]
  refine .always_bind ((engine.attempt_does row request).does.and
    (still_of_outside Stores.Serves.replies (engine.attempt_yields row request).meets))
    (fun _ _ _ => underway) (fun now w is => ?_) fun now outcome w is => ?_
  · obtain ⟨⟨asks, rfl, asked, _⟩, rfl⟩ := is
    exact fun _ => .inr ⟨row, .quiet grown made (quiet.append (Deed.quiet_asks asked)), .inl rfl⟩
  · obtain ⟨⟨asks, rfl, asked, came⟩, rfl⟩ := is
    refine complete_undisturbed grown pending made (quiet.append (Deed.quiet_asks asked)) ?_
    intro result is
    subst is
    exact List.mem_append_right _ (came result rfl result rfl)

/-- An execution whose key is taken by a job for the same thing opens that job, and carries it
out. -/
theorem comes_back (valid : request.validate = .ok ()) {key : String}
    (has : request.idempotencyKey = some key) (found : s.jobs.findByKey? key = some row)
    (fits : row.matchesRequest request = true) {calls : List Services.Exchange}
    {rest : Program Services (Except PublishError Execution)}
    (plays : (engine.execute request).run.Plays Stores.Serves s calls rest t)
    (isOver : rest.IsOver) : ∃ first second, calls = first ++ second ∧
      (Ledger.openJob engine.retryBudget request).toServices.run.Follows first (.done (.ok row)) ∧
      (engine.carryOut request row).run.Plays Stores.Serves s second rest t := by
  have opens : (Ledger.openJob engine.retryBudget request).toServices.Does .serving Deed.of?
      (Comes fun job u => job = row ∧ u = s) [] s :=
    (Ledger.openJob_comes_back engine.retryBudget valid has found fits).toServices
  rw [execute_eq, Action.run_bind] at plays
  rcases plays.of_bind isOver with overflows | ⟨outcome, first, second, u, parts, begun, goesOn⟩
  · have impossible : False := opens.does.goes overflows.goes
    exact impossible.elim
  · have came := opens.does.goes begun.goes
    cases outcome with
    | error error => cases came
    | ok job =>
      obtain ⟨rfl, rfl⟩ : job = row ∧ u = s := came
      exact ⟨first, second, parts, begun.follows, goesOn⟩

end Engine

end Syndication
