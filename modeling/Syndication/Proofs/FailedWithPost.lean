import Syndication.Proofs.Rehearsal
import Syndication.Proofs.Bookings

namespace Syndication

/-- The errand with this number stored a post for the job. -/
def OfficeLog.Posts (log : OfficeLog) (i : Nat) (id : JobId) : Prop :=
  ∃ post, post.jobId = id ∧ (i, ⟨.records (.insertPost post), .ok ()⟩) ∈ log

/-- The errand with this number ended the job in failure. -/
def OfficeLog.Fails (log : OfficeLog) (i : Nat) (id : JobId) : Prop :=
  ∃ job, job.id = id ∧ job.status = .failed ∧ (i, ⟨.records (.updateJob job), .ok true⟩) ∈ log

open Syndication.Action in
theorem Task.action_either (task : Task) :
    task.action.EitherOnly (ServiceCall.Within RecordCall.FailsNoJob)
      (ServiceCall.Within RecordCall.BooksFailure) := by
  have quiet : ∀ c, ServiceCall.Within RecordCall.IsQuiet c →
      ServiceCall.Within RecordCall.BooksFailure c := fun _ within => within.booksFailure
  cases task with
  | execute engine request =>
    exact (Engine.execute_either engine request).andThen fun _ => .pure
  | openJob budget request =>
    have books := (Ledger.openJob_quiet budget request).toServices.mono quiet
    exact (EitherOnly.right books).andThen fun _ => .pure
  | start job =>
    have books := (Ledger.start_quiet job).toServices.mono quiet
    exact (EitherOnly.right books).andThen fun _ => .pure
  | succeed job result =>
    have books := (Ledger.succeed_books job result).toServices.mono
      fun c within => within.mono fun _ is => is.failsNoJob
    exact (EitherOnly.left books).andThen fun _ => .pure
  | fail job message =>
    exact (EitherOnly.right (Ledger.fail_books job message).toServices).andThen fun _ => .pure
  | postOf job =>
    have books := (Ledger.postOf_quiet job).toServices.mono quiet
    exact (EitherOnly.right books).andThen fun _ => .pure

namespace Office

variable {log : OfficeLog} {office : Office}

theorem Runs.post_origin (reached : Runs {} log office) {post : Post}
    (member : post ∈ office.stores.posts.rows) : ∃ i, log.Posts i post.jobId := by
  induction reached with
  | refl => cases member
  | add task _ _ ih => exact ih member
  | @call log b i task c next answer stores before here answered ih =>
    rcases answered.post_origin member with old | new
    · obtain ⟨j, other, same, inLog⟩ := ih old
      exact ⟨j, other, same, List.mem_append_left _ inLog⟩
    · refine ⟨i, post, rfl, List.mem_append_right _ ?_⟩
      rw [new]
      exact List.mem_singleton_self _

theorem Runs.failed_origin (reached : Runs {} log office) {row : Job}
    (member : row ∈ office.stores.jobs.rows) (failed : row.status = .failed) :
    ∃ i, log.Fails i row.id := by
  induction reached with
  | refl => cases member
  | add task _ _ ih => exact ih member
  | @call log b i task c next answer stores before here answered ih =>
    obtain ⟨permitted, _⟩ := (before.sound .empty).1.call here answered
    rcases answered.failed_origin permitted member failed with old | new
    · obtain ⟨j, other, same, failure, inLog⟩ := ih old
      exact ⟨j, other, same, failure, List.mem_append_left _ inLog⟩
    · refine ⟨i, row, rfl, failed, List.mem_append_right _ ?_⟩
      rw [new]
      exact List.mem_singleton_self _

/-- One errand does not both store a post and end a job in failure. -/
theorem Runs.not_both (reached : Runs {} log office) {i : Nat} {id other : JobId}
    (posts : log.Posts i id) : ¬ log.Fails i other := by
  rintro ⟨job, _, failed, failLog⟩
  obtain ⟨post, _, postLog⟩ := posts
  obtain ⟨errand, here, _⟩ := reached.answered .empty postLog
  rcases errand.task.action_either _ _ (reached.follows here) with one | one
  · exact one _ (OfficeLog.mem_of.2 failLog) failed
  · exact one _ (OfficeLog.mem_of.2 postLog)

/-- When a failed job has a post. In every state that an office may come to from its beginning,
with any tasks, any order of calls and any answers and faults, a job is failed and has a post
exactly when one errand stored a post for it and a different errand ended it in failure. -/
theorem failed_with_post_iff (reached : Runs {} log office) (id : JobId) :
    (∃ row ∈ office.stores.jobs.rows, row.id = id ∧ row.status = .failed ∧
      ∃ post ∈ office.stores.posts.rows, post.jobId = id) ↔
    ∃ i j, i ≠ j ∧ log.Posts i id ∧ log.Fails j id := by
  constructor
  · rintro ⟨row, inRows, rfl, failed, post, inPosts, forRow⟩
    obtain ⟨i, posts⟩ := reached.post_origin inPosts
    obtain ⟨j, fails⟩ := reached.failed_origin inRows failed
    rw [forRow] at posts
    refine ⟨i, j, ?_, posts, fails⟩
    rintro rfl
    exact reached.not_both posts fails
  · rintro ⟨i, j, _, ⟨post, rfl, postLog⟩, ⟨job, same, failed, failLog⟩⟩
    obtain ⟨_, _, _, _, _, _, _, ⟨posts, inserted, rfl⟩, onward⟩ :=
      reached.answered .empty postLog
    obtain ⟨_, _, _, _, _, _, _, ⟨jobs, updated, rfl⟩, onward'⟩ :=
      reached.answered .empty failLog
    -- the row was finished when it was written, and the post was the only one, so both stay
    have kept := onward'.finished (JobStore.find?_of_update updated)
      (Job.isTerminal_iff.2 (by simp [failed]))
    have only := onward.post (PostStore.of_insert inserted)
    refine ⟨job, JobStore.mem_of_find? kept, same, failed, post, ?_, rfl⟩
    exact (PostStore.mem_of.1 (only ▸ List.mem_singleton_self post)).1

open Rehearsal in
/-- A delivery publishes and stores its post, but cannot move the row on. The request is delivered
once more, and the platform refuses it as a duplicate. -/
theorem failed_with_post_reached : ∃ log office, Runs {} log office ∧
    office.errands.map (·.task) =
      [.execute Cast.engine Cast.request, .execute Cast.engine Cast.request] ∧
    ∃ row ∈ office.stores.jobs.rows, row.status = .failed ∧
      ∃ post ∈ office.stores.posts.rows, post.jobId = row.id :=
  ⟨_, Cast.halfRecorded.office, (Cast.twice_isRun ..).1, rfl, by decide +kernel⟩

open Rehearsal in
theorem failed_with_post_by_two : ∃ log office, Runs {} log office ∧
    ∃ i j id, i ≠ j ∧ log.Posts i id ∧ log.Fails j id := by
  have run : Runs {} Cast.halfRecorded.log Cast.halfRecorded.office := (Cast.twice_isRun ..).1
  obtain ⟨row, member, failed, posted⟩ :
      ∃ row ∈ Cast.halfRecorded.office.stores.jobs.rows, row.status = .failed ∧
        ∃ post ∈ Cast.halfRecorded.office.stores.posts.rows, post.jobId = row.id := by
    decide +kernel
  obtain ⟨i, j, apart⟩ := (failed_with_post_iff run row.id).1 ⟨row, member, rfl, failed, posted⟩
  exact ⟨_, _, run, i, j, row.id, apart⟩

end Office

end Syndication
