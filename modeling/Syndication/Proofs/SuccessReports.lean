import Syndication.Proofs.StartStamp
import Syndication.Proofs.Working

namespace Syndication

namespace Ledger

/-- The report is true. With a post, the row of the job was pending and is the reported job now, a
success, and the post is stored for it. Without a post, the reported job is finished and is its own
row, and nothing was stored. -/
def Truthful (s later : Stores) : Job × Option Post → Prop
  | (job, some post) => (∃ row, s.jobs.find? job.id = some row ∧ row.status = .pending) ∧
      job.status = .success ∧ later.jobs.find? job.id = some job ∧
      later.posts.find? job.id = some post
  | (job, none) => job.isTerminal = true ∧ later.jobs.find? job.id = some job ∧ later = s

open Syndication.Action Program

variable {job row : Job} {result : PublishResult} {s later : Stores} {answer : Job × Option Post}

/-- What the move to success comes to is reported truly, unless there was a row to move and no post
to record. -/
theorem SuccessOf.truthful_iff (reported : SuccessOf job row result s answer later)
    (holds : s.Holds job) (found : s.jobs.find? job.id = some row) :
    Truthful s later answer ↔ row.isTerminal = true ∨ result.NamesPost := by
  cases reported with
  | finishedHere finished =>
    have own := holds.2 finished
    obtain rfl : row = job := Option.some.inj (found.symm.trans own)
    exact iff_of_true ⟨finished, own, rfl⟩ (.inl finished)
  | finishedThere finished =>
    have own : s.jobs.find? row.id = some row := by rwa [JobStore.id_of_find? found]
    exact iff_of_true ⟨finished, own, rfl⟩ (.inl finished)
  | unrecorded open_ unfinished unnamed =>
    refine iff_of_false (fun truthful => ?_) (by simp [unfinished, unnamed])
    cases open_.symm.trans truthful.1
  | @moved done post jobs posts names same status updated stored =>
    have sameId : done.id = job.id := Job.id_eq_of_work_eq same
    rw [← sameId] at found stored
    have pending : row.status = .pending := by
      obtain ⟨old, here, ⟨impossible, _⟩ | ⟨_, unfinished, _⟩⟩ := JobStore.update_eq_ok updated
      · cases impossible
      · obtain rfl := Option.some.inj (found.symm.trans here)
        by_contra finished
        cases unfinished.symm.trans (Job.isTerminal_iff.2 finished)
    exact iff_of_true
      ⟨⟨row, found, pending⟩, status, JobStore.find?_of_update updated, stored⟩ (.inr names)

/-- A report that is not true gives the job back as it came, still pending. -/
theorem SuccessOf.of_not_truthful (reported : SuccessOf job row result s answer later)
    (holds : s.Holds job) (found : s.jobs.find? job.id = some row)
    (untrue : ¬ Truthful s later answer) :
    answer = (job, none) ∧ job.status = .pending ∧ later = s := by
  rw [reported.truthful_iff holds found, not_or] at untrue
  obtain ⟨unfinished, unnamed⟩ := untrue
  cases reported with
  | finishedHere finished =>
    obtain rfl : row = job := Option.some.inj (found.symm.trans (holds.2 finished))
    exact absurd finished unfinished
  | finishedThere finished => exact absurd finished unfinished
  | unrecorded open_ =>
    refine ⟨rfl, ?_, rfl⟩
    by_contra finished
    cases open_.symm.trans (Job.isTerminal_iff.2 finished)
  | moved names => exact absurd names unnamed

/-- On records that work, with nobody else there, the move to success comes to a report. -/
theorem succeed_reports {calls : List Services.Exchange}
    {rest : Program Services (Except PublishError (Job × Option Post))}
    (found : s.jobs.find? job.id = some row) (success : result.success = true)
    (plays : (succeed job result).toServices.run.Plays Stores.Serves s calls rest later)
    (isOver : rest.IsOver) :
    ∃ answer, rest = .done (.ok answer) ∧ SuccessOf job row result s answer later := by
  have comes : (succeed job result).toServices.Does .serving Deed.of?
      (Comes (SuccessOf job row result s)) [] s := (succeed_answers found success).toServices
  have stands := comes.does.goes plays.goes
  cases rest with
  | done outcome =>
    cases outcome with
    | ok answer => exact ⟨answer, rfl, stands⟩
    | error error => cases stands
  | overflow => cases stands
  | call => cases isOver

end Ledger

namespace Rehearsal.Cast

/-- The move of the opened job to success. -/
def succeeding (result : PublishResult) : Action Services (Job × Option Post) :=
  (Ledger.succeed opened result).toServices

def succeedingCalls (result : PublishResult) : List Services.Exchange :=
  (succeeding result).run.transcript Stage.perform opening.stage

theorem succeeding_plays {result : PublishResult} {answer : Job × Option Post}
    (returns : (opening.stage.act (succeeding result)).1 = some (.ok answer))
    (fares : (succeeding result).run.passes Stage.perform Stage.fares opening.stage = true) :
    (succeeding result).run.Plays Stores.Serves opening.office.stores (succeedingCalls result)
      (.done (.ok answer)) (opening.stage.act (succeeding result)).2.stores :=
  Stage.act_serves opening_isRun.2 returns fares

end Rehearsal.Cast

namespace Office

open Ledger Rehearsal

/-- When a success is reported truly. Take the stores of any run of an office, any copy of a job
that was handed out in it, and any result that calls itself a success. On records that work, with
nobody else there, the move of the job to success ends with a report. It is true exactly if the row
of the job was finished before, or the result says all of its post. An untrue report gives the job
back still pending, without a post, as if it were finished, and nothing was stored. -/
theorem success_truthful_iff {log : OfficeLog} {office : Office} {job : Job}
    {result : PublishResult} {calls : List Services.Exchange} {later : Stores}
    {rest : Program Services (Except PublishError (Job × Option Post))}
    (reached : Runs {} log office) (handedOut : office.HandsOut job)
    (success : result.success = true)
    (plays : (succeed job result).toServices.run.Plays Stores.Serves office.stores calls rest later)
    (isOver : rest.IsOver) :
    ∃ row answer, office.stores.jobs.find? job.id = some row ∧ rest = .done (.ok answer) ∧
      (Truthful office.stores later answer ↔ row.isTerminal = true ∨ result.NamesPost) ∧
      (¬ Truthful office.stores later answer →
        answer = (job, none) ∧ job.status = .pending ∧ later = office.stores) := by
  have holds := (reached.sound .empty).1.holds handedOut
  obtain ⟨row, found, _⟩ := holds.1
  obtain ⟨answer, is, reported⟩ := succeed_reports found success plays isOver
  exact ⟨row, answer, found, is, reported.truthful_iff holds found,
    reported.of_not_truthful holds found⟩

/-- A job that was opened is moved to success with a result that says all of its post. -/
theorem success_truthful_published : ∃ log office calls done post later,
    Runs {} log office ∧ office.HandsOut Cast.opened ∧
    (succeed Cast.opened (.published "video-1" "https://video.test/1")).toServices.run.Plays
      Stores.Serves office.stores calls (.done (.ok (done, some post))) later ∧
    Truthful office.stores later (done, some post) := by
  let result : PublishResult := .published "video-1" "https://video.test/1"
  have posted : (((Cast.opening.stage.act (Cast.succeeding result)).1.bind Except.toOption).any
      fun answer => answer.2.isSome) = true := by decide +kernel
  obtain ⟨⟨done, post⟩, returns, is⟩ := Program.exists_ok _ posted
  obtain ⟨post, rfl⟩ := Option.isSome_iff_exists.1 is
  have plays := Cast.succeeding_plays returns (by decide +kernel)
  obtain ⟨_, _, _, ⟨⟩, truthful, _⟩ :=
    success_truthful_iff Cast.opening_isRun.1 Cast.opening_handsOut rfl plays trivial
  exact ⟨_, _, _, done, post, _, Cast.opening_isRun.1, Cast.opening_handsOut, plays,
    truthful.2 (.inr ⟨rfl, rfl⟩)⟩

/-- A result that says no more than that it is a success. The job that was opened is answered
without a post, as if it were finished, and is pending. -/
theorem success_untruthful : ∃ log office result calls later,
    Runs {} log office ∧ office.HandsOut Cast.opened ∧
    PublishResult.ofJson? (.obj [("success", .bool true)]) = some result ∧
    result.success = true ∧
    (succeed Cast.opened result).toServices.run.Plays Stores.Serves office.stores calls
      (.done (.ok (Cast.opened, none))) later ∧ Cast.opened.isTerminal = false := by
  let result : PublishResult := ⟨true, none, none, none, none⟩
  have returns : (Cast.opening.stage.act (Cast.succeeding result)).1 =
      some (.ok (Cast.opened, none)) := by decide +kernel
  have plays := Cast.succeeding_plays returns (by decide +kernel)
  exact ⟨_, _, result, _, _, Cast.opening_isRun.1, Cast.opening_handsOut, by decide +kernel, rfl,
    plays, rfl⟩

end Office

end Syndication
