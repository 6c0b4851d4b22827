import Syndication.Proofs.Rehearsal
import Syndication.Proofs.Rows

namespace Syndication

/-- A mark for a job, with the time that it is given. -/
inductive Mark where
  | started (time : Timestamp)
  | success (time : Timestamp)
  | failure (message : String) (time : Timestamp)

namespace Mark

def time : Mark → Timestamp
  | .started time | .success time | .failure _ time => time

/-- What a pending job is when it has the mark, unless it stays pending. -/
def ending? : Mark → Option JobStatus
  | .started _ => none
  | .success _ => some .success
  | .failure .. => some .failed

/-- The message that the mark leaves. -/
def error? : Mark → Option String
  | .failure message _ => some message
  | .started _ | .success _ => none

/-- The start that a job has by the mark if it had none before. -/
def ownStart? : Mark → Option Timestamp
  | .started time | .success time => some time
  | .failure .. => none

/-- The time of the first start. -/
def firstStart? (marks : List Mark) : Option Timestamp :=
  marks.findSome? fun
    | .started time => some time
    | _ => none

end Mark

namespace Job

/-- The job with the mark, and whether the mark took effect. -/
def mark (job : Job) : Mark → Job × Bool
  | .started time => job.markStarted time
  | .success time => job.markSuccess time
  | .failure message time => job.markFailure message time

/-- The job after all of the marks, and for each of them whether it took effect. -/
def markAll (job : Job) : List Mark → Job × List Bool
  | [] => (job, [])
  | mark :: marks =>
    let (next, took) := job.mark mark
    let (last, others) := next.markAll marks
    (last, took :: others)

/-- The job after all of the marks. -/
def after (job : Job) (marks : List Mark) : Job := (job.markAll marks).1

/-- Whether the mark took effect that has this number among the marks. -/
def took? (job : Job) (marks : List Mark) (i : Nat) : Option Bool := (job.markAll marks).2[i]?

theorem after_cons (job : Job) (mark : Mark) (marks : List Mark) :
    job.after (mark :: marks) = (job.mark mark).1.after marks := rfl

theorem after_append (job : Job) (marks others : List Mark) :
    job.after (marks ++ others) = (job.after marks).after others := by
  induction marks generalizing job with
  | nil => rfl
  | cons mark marks ih => exact ih _

theorem length_markAll (job : Job) (marks : List Mark) :
    (job.markAll marks).2.length = marks.length := by
  induction marks generalizing job with
  | nil => rfl
  | cons mark marks ih => exact congrArg (· + 1) (ih _)

theorem took?_eq (job : Job) (marks : List Mark) (i : Nat) :
    job.took? marks i = marks[i]?.map fun mark => ((job.after (marks.take i)).mark mark).2 := by
  induction marks generalizing job i with
  | nil => rfl
  | cons mark marks ih =>
    cases i with
    | zero => rfl
    | succ i => exact ih _ i

theorem after_take_succ (job : Job) {marks : List Mark} {i : Nat} {mark : Mark}
    (here : marks[i]? = some mark) :
    job.after (marks.take (i + 1)) = ((job.after (marks.take i)).mark mark).1 := by
  rw [List.take_add_one, here, after_append]
  rfl

section

variable {job : Job}

theorem mark_of_terminal (finished : job.isTerminal = true) (mark : Mark) :
    job.mark mark = (job, false) := by
  have noMore (status : JobStatus) : job.status.canBecome status = false := by
    by_contra open_
    exact isTerminal_iff.1 finished (JobStatus.canBecome_iff.1 (by simpa using open_)).1
  cases mark <;> simp [Job.mark, markStarted, markSuccess, markFailure, finished, noMore]

theorem mark_started_of_pending (pending : job.status = .pending) (time : Timestamp) :
    job.mark (.started time) =
      if job.startedAt = none then ({ job with startedAt := some time, updatedAt := time }, true)
      else (job, false) := by
  have unfinished : job.isTerminal = false := by simp [isTerminal, pending, JobStatus.isTerminal,
    JobStatus.next]
  cases stamp : job.startedAt <;> simp [Job.mark, markStarted, unfinished, stamp]

theorem mark_of_ending (pending : job.status = .pending) {mark : Mark} {status : JobStatus}
    (ends : mark.ending? = some status) :
    job.mark mark =
      ({ job with
          status
          startedAt := job.startedAt.or mark.ownStart?
          finishedAt := some mark.time
          lastError := mark.error?
          updatedAt := mark.time }, true) := by
  cases mark with
  | started => cases ends
  | success time =>
    cases ends
    cases stamp : job.startedAt <;>
      simp [Job.mark, markSuccess, pending, stamp, JobStatus.canBecome, JobStatus.next,
        Mark.ownStart?, Mark.error?, Mark.time]
  | failure message time =>
    cases ends
    simp [Job.mark, markFailure, pending, JobStatus.canBecome, JobStatus.next, Mark.ownStart?,
      Mark.error?, Mark.time]

/-- A mark takes effect and changes the job, or does neither; it does if the job is pending, and a
start only if it is the first. -/
theorem mark_cases (job : Job) (mark : Mark) :
    (∃ next, job.mark mark = (next, true) ∧ next ≠ job ∧
      job.status = .pending ∧ (mark.ending? = none → job.startedAt = none)) ∨
    (job.mark mark = (job, false) ∧
      ¬ (job.status = .pending ∧ (mark.ending? = none → job.startedAt = none))) := by
  by_cases pending : job.status = .pending
  · cases ends : mark.ending? with
    | some status =>
      have changed : status ≠ .pending := by
        rintro rfl
        cases mark <;> cases ends
      refine .inl ⟨_, mark_of_ending pending ends, fun same => changed ?_, pending, nofun⟩
      exact (congrArg Job.status same).trans pending
    | none =>
      cases mark with
      | started time =>
        rw [mark_started_of_pending pending]
        by_cases unstarted : job.startedAt = none
        · refine .inl ⟨_, if_pos unstarted, fun same => ?_, pending, fun _ => unstarted⟩
          exact Option.some_ne_none time ((congrArg Job.startedAt same).trans unstarted)
        · exact .inr ⟨if_neg unstarted, fun both => unstarted (both.2 rfl)⟩
      | success | failure => cases ends
  · exact .inr ⟨mark_of_terminal (isTerminal_iff.2 pending) mark, fun both => pending both.1⟩

theorem mark_took_iff {mark : Mark} : (job.mark mark).2 = true ↔
    job.status = .pending ∧ (mark.ending? = none → job.startedAt = none) := by
  obtain ⟨_, same, _, takes⟩ | ⟨same, refused⟩ := job.mark_cases mark
  · rw [same]
    exact iff_of_true rfl takes
  · rw [same]
    exact iff_of_false Bool.false_ne_true refused

theorem mark_took_iff_ne {mark : Mark} : (job.mark mark).2 = true ↔ (job.mark mark).1 ≠ job := by
  obtain ⟨_, same, changed, _⟩ | ⟨same, _⟩ := job.mark_cases mark
  · rw [same]
    exact iff_of_true rfl changed
  · rw [same]
    exact iff_of_false Bool.false_ne_true fun changed => changed rfl

theorem after_of_terminal (finished : job.isTerminal = true) (marks : List Mark) :
    job.after marks = job := by
  induction marks with
  | nil => rfl
  | cons mark marks ih => rw [after_cons, mark_of_terminal finished, ih]

/-- Without a mark that ends it, a job gets the first start and stays as it is otherwise. -/
theorem after_of_unended (pending : job.status = .pending) (unstarted : job.startedAt = none)
    {marks : List Mark} (unended : ∀ mark ∈ marks, mark.ending? = none) :
    job.after marks =
      { job with
        startedAt := Mark.firstStart? marks
        updatedAt := (Mark.firstStart? marks).getD job.updatedAt } := by
  -- All marks are starts, and a job that has one takes no other.
  have later : ∀ {marks : List Mark} {job : Job}, job.status = .pending → job.startedAt ≠ none →
      (∀ mark ∈ marks, mark.ending? = none) → job.after marks = job := by
    intro marks job pending started unended
    induction marks with
    | nil => rfl
    | cons mark marks ih =>
      obtain ⟨first, others⟩ := List.forall_mem_cons.1 unended
      cases mark with
      | started time => rw [after_cons, mark_started_of_pending pending, if_neg started, ih others]
      | success | failure => cases first
  cases marks with
  | nil =>
    cases job
    cases unstarted
    rfl
  | cons mark marks =>
    obtain ⟨first, others⟩ := List.forall_mem_cons.1 unended
    cases mark with
    | started time =>
      rw [after_cons, mark_started_of_pending pending, if_pos unstarted]
      exact later pending (Option.some_ne_none time) others
    | success | failure => cases first

/-- The first mark that ends a job decides what it is for good. -/
theorem after_of_ended (pending : job.status = .pending) (unstarted : job.startedAt = none)
    {before later : List Mark} {last : Mark} {status : JobStatus}
    (unended : ∀ mark ∈ before, mark.ending? = none) (ends : last.ending? = some status) :
    job.after (before ++ last :: later) =
      { job with
        status
        startedAt := (Mark.firstStart? before).or last.ownStart?
        finishedAt := some last.time
        lastError := last.error?
        updatedAt := last.time } := by
  have open_ := after_of_unended pending unstarted unended
  have stillPending : (job.after before).status = .pending := by rw [open_]; exact pending
  have terminal : ((job.after before).mark last).1.isTerminal = true := by
    rw [mark_of_ending stillPending ends, isTerminal_iff]
    rintro rfl
    cases last <;> cases ends
  rw [after_append, after_cons, after_of_terminal terminal, mark_of_ending stillPending ends, open_]

theorem status_after_eq_pending_iff (pending : job.status = .pending)
    (unstarted : job.startedAt = none) {marks : List Mark} :
    (job.after marks).status = .pending ↔ ∀ mark ∈ marks, mark.ending? = none := by
  constructor
  · intro still mark member
    by_contra ends
    have someEnds : (marks.find? fun mark => mark.ending?.isSome).isSome := by
      rw [List.find?_isSome]
      exact ⟨mark, member, Option.isSome_iff_ne_none.2 ends⟩
    obtain ⟨last, found⟩ := Option.isSome_iff_exists.1 someEnds
    obtain ⟨decides, before, later, rfl, unended⟩ := List.find?_eq_some_iff_append.1 found
    obtain ⟨status, is⟩ := Option.isSome_iff_exists.1 decides
    rw [after_of_ended pending unstarted (by simpa using unended) is] at still
    cases last <;> cases is <;> cases still
  · intro unended
    rw [after_of_unended pending unstarted unended]
    exact pending

end

/-- Any marks on a job that was just made for a request, with any times and messages. As long as
none of them ends it, the job is as it was made, but for the first start. The first one that ends it
decides its status, its end and its message for good; its start is the first one before, or else
that of a success. A mark says that it took effect exactly if it changed the job, and that is if no
mark before it has ended the job and, for a start, none has started it. -/
theorem first_ending_wins (request : Request) (budget : UInt32) (id : JobId) (now : Timestamp)
    (marks : List Mark) :
    let job := ofRequest request budget id now
    ((∀ mark ∈ marks, mark.ending? = none) → job.after marks =
      { job with
        startedAt := Mark.firstStart? marks
        updatedAt := (Mark.firstStart? marks).getD now }) ∧
    (∀ before last later status, marks = before ++ last :: later →
      (∀ mark ∈ before, mark.ending? = none) → last.ending? = some status → job.after marks =
      { job with
        status
        startedAt := (Mark.firstStart? before).or
          (if status = .success then some last.time else none)
        finishedAt := some last.time
        lastError := last.error?
        updatedAt := last.time }) ∧
    (job.markAll marks).2.length = marks.length ∧
    ∀ i mark, marks[i]? = some mark →
      (job.took? marks i = some true ↔
        job.after (marks.take (i + 1)) ≠ job.after (marks.take i)) ∧
      (job.took? marks i = some true ↔ (∀ earlier ∈ marks.take i, earlier.ending? = none) ∧
        (mark.ending? = none → Mark.firstStart? (marks.take i) = none)) := by
  intro job
  have pending : job.status = .pending := rfl
  have unstarted : job.startedAt = none := rfl
  refine ⟨after_of_unended pending unstarted, ?_, length_markAll job marks, ?_⟩
  · rintro before last later status rfl unended ends
    have start : last.ownStart? = if status = .success then some last.time else none := by
      cases last <;> cases ends <;> rfl
    rw [after_of_ended pending unstarted unended ends, start]
  · intro i mark here
    have flag : job.took? marks i = some true ↔
        ((job.after (marks.take i)).mark mark).2 = true := by
      rw [took?_eq, here, Option.map_some, Option.some.injEq]
    refine ⟨by rw [flag, after_take_succ job here, mark_took_iff_ne], ?_⟩
    rw [flag, mark_took_iff, status_after_eq_pending_iff pending unstarted]
    refine and_congr_right fun unended => ?_
    rw [after_of_unended pending unstarted unended]

end Job

namespace Rehearsal.Cast

def unmarked : Job := Job.ofRequest request Job.defaultMaxRetries ⟨.ofNat 16⟩ morning

/-- A start, a failure, and what comes too late. -/
def marks : List Mark :=
  [.started morning, .failure "[AUTH] revoked" ⟨60, 0, by decide⟩, .started ⟨120, 0, by decide⟩,
    .success ⟨180, 0, by decide⟩]

end Rehearsal.Cast

open Rehearsal in
/-- A success that comes after the failure changes nothing. -/
theorem Job.first_ending_wins_late :
    Cast.unmarked.after Cast.marks =
      { Cast.unmarked with
        status := .failed
        startedAt := some Cast.morning
        finishedAt := some ⟨60, 0, by decide⟩
        lastError := some "[AUTH] revoked"
        updatedAt := ⟨60, 0, by decide⟩ } ∧
    Cast.unmarked.took? Cast.marks 1 = some true ∧
    Cast.unmarked.took? Cast.marks 3 ≠ some true := by
  obtain ⟨_, ended, _, each⟩ :=
    first_ending_wins Cast.request Job.defaultMaxRetries ⟨.ofNat 16⟩ Cast.morning Cast.marks
  have unended : ∀ mark ∈ [Mark.started Cast.morning], mark.ending? = none := by
    simp [Mark.ending?]
  refine ⟨ended [.started Cast.morning] _ _ .failed rfl unended rfl, ?_, fun took => ?_⟩
  · exact (each 1 _ rfl).2.2 ⟨unended, by rintro ⟨⟩⟩
  · have failure : Mark.failure "[AUTH] revoked" ⟨60, 0, by decide⟩ ∈ Cast.marks.take 3 := by
      simp [Cast.marks]
    cases ((each 3 _ rfl).2.1 took).1 _ failure

end Syndication
