import Syndication.Proofs.Resumption
import Syndication.Proofs.RetryRequests

namespace Syndication

/-- The envelope tells how this job ended. -/
def Envelope.tellsEndOf (id : JobId) (envelope : Envelope) : Bool :=
  envelope.tellsEnd && envelope.aggregateId == id.text

theorem Envelope.tellsEndOf_iff {id : JobId} {envelope : Envelope} :
    envelope.tellsEndOf id = true ↔ envelope.tellsEnd = true ∧ envelope.aggregateId = id.text := by
  simp [tellsEndOf]

theorem OfficeLog.deeds_attend (log : OfficeLog) (n i : Nat) (calls : List Services.Exchange) :
    deeds (log ++ calls.map (Prod.mk n)) i =
      log.deeds i ++ if n = i then calls.filterMap Deed.of? else [] := by
  by_cases here : n = i <;>
    simp [deeds, of, here, List.filterMap_append, List.filterMap_map]

namespace Ledger

variable {budget : UInt32} {request : Request}

theorem openJob_run_of_invalid {error : PublishError} (invalid : request.validate = .error error) :
    (openJob budget request).run = .done (.error error) := by
  rw [openJob, invalid]
  rfl

/-- A valid request with a key begins with looking the key up. -/
theorem openJob_run (valid : request.validate = .ok ()) {key : String}
    (has : request.idempotencyKey = some key) :
    (openJob budget request).run = .call (.findJobByKey key) fun
      | .ok (some existing) => .done (reuse existing request key)
      | .ok none => (insertNew budget request).run
      | .error fault => .done (.error (.persistence fault)) := by
  rw [openJob, valid, has]
  refine congrArg (Program.call (I := Records) (RecordCall.findJobByKey key)) ?_
  funext answer
  match answer with
  | .ok (some existing) => rfl
  | .ok none => rfl
  | .error fault => rfl

end Ledger

namespace Engine

/-- What comes of a request whose key belongs to a finished job. All that is called, if anything, is
the look at the key. -/
inductive Absorbs (request : Request) (key : String) (row : Job) :
    List Services.Exchange → Except PublishError Execution → Prop
  | invalid {error} : request.validate = .error error → Absorbs request key row [] (.error error)
  | unread {fault} : request.validate = .ok () →
      Absorbs request key row [⟨.records (.findJobByKey key), .error fault⟩]
        (.error (.persistence fault))
  | conflict : request.validate = .ok () → row.matchesRequest request = false →
      Absorbs request key row [⟨.records (.findJobByKey key), .ok (some row)⟩]
        (.error (.idempotencyConflict key row.id))
  | completed : request.validate = .ok () → row.matchesRequest request = true →
      Absorbs request key row [⟨.records (.findJobByKey key), .ok (some row)⟩]
        (.ok ⟨row, .alreadyCompleted⟩)

variable {engine : Engine} {request : Request} {s t : Stores} {row : Job}

theorem absorbs_of_finished (sound : s.Sound) (member : row ∈ s.jobs.rows)
    (finished : row.isTerminal = true) {key : String} (rowHas : row.idempotencyKey = some key)
    (has : request.idempotencyKey = some key) {calls : List Services.Exchange}
    {rest : Program Services (Except PublishError Execution)}
    (plays : (engine.execute request).run.Plays Stores.Replies s calls rest t)
    (isOver : rest.IsOver) :
    t = s ∧ ∃ outcome, rest = .done outcome ∧ Absorbs request key row calls outcome := by
  rw [execute_eq, Action.run_bind, Action.toServices, ExceptT.run_mk] at plays
  cases valid : request.validate with
  | error error =>
    rw [Ledger.openJob_run_of_invalid valid] at plays
    cases plays
    exact ⟨rfl, _, rfl, .invalid valid⟩
  | ok _ =>
    rw [Ledger.openJob_run valid has] at plays
    cases plays with
    | stop => cases isOver
    | @call _ _ answer _ _ _ _ _ answered goesOn =>
      match answer with
      | .error fault =>
        obtain rfl := answered
        cases goesOn
        exact ⟨rfl, _, rfl, .unread valid⟩
      | .ok read =>
        obtain ⟨rfl, rfl⟩ := answered
        rw [sound.findByKey?_eq member rowHas] at goesOn ⊢
        cases fits : row.matchesRequest request with
        | false =>
          simp only [Program.done_bind, Program.through, Ledger.reuse, fits] at goesOn
          cases goesOn
          exact ⟨rfl, _, rfl, .conflict valid fits⟩
        | true =>
          simp only [Program.done_bind, Program.through, Ledger.reuse, fits, carryOut, finished,
            if_true] at goesOn
          cases goesOn
          exact ⟨rfl, _, rfl, .completed valid fits⟩

end Engine

namespace Office

/-- Requests that were executed one after the other from the beginning, with all their calls. Each
execution was alone, and may have been given up before its end. -/
inductive InTurn : OfficeLog → Office → Prop
  | start : InTurn [] {}
  | next {log office stores calls rest} (engine : Engine) (request : Request) :
      InTurn log office →
      (Task.execute engine request).action.run.Plays Stores.Replies office.stores calls rest
        stores →
      InTurn (log ++ calls.map (Prod.mk office.errands.length))
        ⟨stores, office.errands ++ [⟨.execute engine request, rest⟩]⟩

variable {log : OfficeLog} {office : Office}

theorem InTurn.runs (inTurn : InTurn log office) : Runs {} log office := by
  induction inTurn with
  | start => exact .refl
  | next engine request _ plays ih => exact ih.attend (by simp [Task.job?]) plays

/-- Ends are told by who ended the job. -/
theorem InTurn.ownsEnds (inTurn : InTurn log office) (i : Nat) : Deed.OwnsEnds (log.deeds i) := by
  induction inTurn with
  | start => exact .nil
  | @next log office stores calls rest engine request inTurn plays ih =>
    rw [OfficeLog.deeds_attend]
    split
    · rename_i last
      have none : log.deeds i = [] := by
        rw [OfficeLog.deeds, inTurn.runs.no_calls (by omega), List.filterMap_nil]
      have sound := (inTurn.runs.sound .empty).1.stores
      have solo : (Task.execute engine request).action.Does (.alone Stores.Replies) Deed.of?
          (fun deeds _ _ => Deed.OwnsEnds deeds) [] office.stores :=
        (Engine.execute_solo sound).bind (fun _ _ _ _ _ is => is.2) fun _ _ _ is => .pure is.2
      rw [none]
      exact solo.does.goes plays.goes
    · simpa using ih

theorem InTurn.ends_once (inTurn : InTurn log office) (id : JobId) :
    (log.sent.filter (·.tellsEndOf id)).length ≤ 1 := by
  refine inTurn.runs.sent_once id
    (fun type => type == "publish.succeeded.v1" || type == "publish.failed.v1") (by decide)
    (fun envelope tells => (Envelope.tellsEndOf_iff.1 tells).1) fun i envelope sent tells => ?_
  obtain ⟨tells, forJob⟩ := Envelope.tellsEndOf_iff.1 tells
  rw [OfficeLog.sentBy_eq] at sent
  obtain ⟨row, ended, same⟩ := inTurn.ownsEnds i envelope sent tells
  exact ⟨row, ended, JobId.text_injective (same.symm.trans forJob)⟩

/-- Deliveries that come one after the other have their effects once. Take any sequence of them from
the beginning, with any answers and faults, each carried out alone. In all, at most one end and at
most one request for a retry is told of a job. And whenever a request is executed whose key belongs
to a finished job, the stores stay as they are, and at most the key is looked up: the request is
invalid, or the look fails, or it finds the job, which is answered as completed if the request is
for the same thing and as a conflict if it is not. -/
theorem delivered_once (inTurn : InTurn log office) :
    (∀ id, (log.sent.filter (·.tellsEndOf id)).length ≤ 1 ∧
      (log.sent.filter (·.asksRetryOf id)).length ≤ 1) ∧
    ∀ row ∈ office.stores.jobs.rows, row.isTerminal = true →
      ∀ key, row.idempotencyKey = some key →
      ∀ (engine : Engine) (request : Request) calls rest t, request.idempotencyKey = some key →
        (engine.execute request).run.Plays Stores.Replies office.stores calls rest t →
        rest.IsOver → t = office.stores ∧
          ∃ outcome, rest = .done outcome ∧ Engine.Absorbs request key row calls outcome := by
  refine ⟨fun id => ⟨inTurn.ends_once id, inTurn.runs.retries_once id⟩, ?_⟩
  intro row member finished key rowHas engine request calls rest t has plays isOver
  exact Engine.absorbs_of_finished (inTurn.runs.sound .empty).1.stores member finished rowHas has
    plays isOver

end Office

namespace Rehearsal

/-- The session is a sequence of deliveries from the beginning, on an honest stage. -/
def Session.IsInTurn (session : Session) : Prop :=
  Office.InTurn session.log session.office ∧ session.stage.Honest

theorem Session.IsInTurn.deliver {session : Session} (isInTurn : session.IsInTurn) (engine : Engine)
    (request : Request) : (session.attend (.execute engine request)).IsInTurn := by
  obtain ⟨inTurn, honest⟩ := isInTurn
  obtain ⟨plays, still⟩ := Program.plays_run Stage.perform_imitates
    (Task.execute engine request).action.run honest
  exact ⟨inTurn.next engine request plays, still⟩

theorem Cast.twice_isInTurn (updates : List Bool) (answers : List PublishResult) :
    (twice updates answers).IsInTurn := by
  have opened : Session.IsInTurn { stage := stage updates answers } :=
    ⟨.start, stage_honest updates answers⟩
  exact (opened.deliver engine request).deliver engine request

end Rehearsal

open Rehearsal in
/-- A delivery is refused for a rate limit, and the request is delivered twice more. -/
theorem Office.delivered_once_thrice : ∃ log office row, InTurn log office ∧
    row ∈ office.stores.jobs.rows ∧ row.status = .failed ∧
    (log.sent.filter (·.tellsEndOf row.id)).length = 1 ∧
    (log.sent.filter (·.asksRetryOf row.id)).length = 1 ∧
    (∀ id, (log.sent.filter (·.tellsEndOf id)).length ≤ 1) ∧
    ∃ calls t, (Cast.engine.execute Cast.request).run.Plays Stores.Replies office.stores calls
        (.done (.ok ⟨row, .alreadyCompleted⟩)) t ∧ t = office.stores ∧
      calls = [⟨.records (.findJobByKey "key-1"), .ok (some row)⟩] := by
  obtain ⟨inTurn, honest⟩ := Cast.twice_isInTurn [] Cast.busy
  obtain ⟨row, member, failed, has, ended, retried⟩ :
      ∃ row ∈ (Cast.twice [] Cast.busy).office.stores.jobs.rows, row.status = .failed ∧
        row.idempotencyKey = some "key-1" ∧
        ((Cast.twice [] Cast.busy).log.sent.filter (·.tellsEndOf row.id)).length = 1 ∧
        ((Cast.twice [] Cast.busy).log.sent.filter (·.asksRetryOf row.id)).length = 1 := by
    decide +kernel
  obtain ⟨execution, answered, _⟩ : ∃ execution, ((Cast.twice [] Cast.busy).stage.act
      (Cast.engine.execute Cast.request)).1 = some (.ok execution) ∧ true :=
    Program.exists_ok (fun _ => true) (by decide +kernel)
  have plays := (Stage.act_plays honest answered).1
  have finished : row.isTerminal = true := Job.isTerminal_iff.2 (by simp [failed])
  obtain ⟨once, again⟩ := delivered_once inTurn
  obtain ⟨same, outcome, is, absorbs⟩ :=
    again row member finished "key-1" has Cast.engine Cast.request _ _ _ rfl plays trivial
  cases is
  generalize (Cast.engine.execute Cast.request).run.transcript Stage.perform _ = calls
    at plays absorbs
  cases absorbs
  exact ⟨_, _, row, inTurn, member, failed, ended, retried, fun id => (once id).1, _, _, plays,
    same, rfl⟩

end Syndication
