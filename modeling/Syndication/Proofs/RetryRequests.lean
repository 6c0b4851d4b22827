import Syndication.Proofs.EventProtocol

namespace Syndication

/-- The envelope asks for a retry of the job. -/
def Envelope.asksRetryOf (id : JobId) (envelope : Envelope) : Bool :=
  envelope.eventType == "publish.retry_requested.v1" && envelope.aggregateId == id.text

theorem Envelope.asksRetryOf_iff {id : JobId} {envelope : Envelope} :
    envelope.asksRetryOf id = true ↔
      envelope.eventType = "publish.retry_requested.v1" ∧ envelope.aggregateId = id.text := by
  simp [asksRetryOf]

/-- What was sent was sent by one of the errands. -/
theorem OfficeLog.sentBy_of_sent {log : OfficeLog} {envelope : Envelope}
    (sent : envelope ∈ log.sent) : ∃ i, envelope ∈ log.sentBy i := by
  obtain ⟨i, answer, member⟩ := mem_sent sent
  exact ⟨i, List.mem_filterMap.2 ⟨_, mem_of.2 member, rfl⟩⟩

/-- If one errand only sends envelopes of a kind, it sends all that are sent of it. -/
theorem OfficeLog.filter_sent {log : OfficeLog} {isOf : Envelope → Bool} {i : Nat}
    (only : ∀ j, ∀ envelope ∈ log.sentBy j, isOf envelope = true → j = i) :
    log.sent.filter isOf = (log.sentBy i).filter isOf := by
  rw [sent, sentBy, of, List.filterMap_filterMap, List.filter_filterMap, List.filter_filterMap]
  refine List.filterMap_congr ?_
  rintro ⟨j, c, answer⟩ member
  cases c with
  | records c =>
    cases c with
    | send envelope =>
      by_cases here : j = i
      · simp [here]
      · have sent : envelope ∈ log.sentBy j :=
          List.mem_filterMap.2 ⟨_, mem_of.2 member, rfl⟩
        have other : isOf envelope = false :=
          Bool.eq_false_iff.2 fun is => here (only j envelope sent is)
        simp [here, other]
    | _ => dsimp only; split <;> rfl
  | _ => dsimp only; split <;> rfl

/-- The next attempt has the next number. The count of retries cannot wrap, since it is below
their budget. -/
theorem RetryEvent.Continues.nextAttempt_toNat {event : RetryEvent} {job : Job}
    (continues : event.Continues job) (budget : job.retryCount < job.maxRetries) :
    event.nextAttempt.toNat = job.retryCount.toNat + 1 := by
  have small : job.retryCount.toNat < job.maxRetries.toNat := UInt32.lt_iff_toNat_lt.1 budget
  have bound := job.maxRetries.toNat_lt
  rw [continues.nextAttempt, UInt32.toNat_add, UInt32.toNat_one]
  omega

namespace Office

variable {log : OfficeLog} {office : Office}

/-- Only an execution sends anything. -/
theorem Runs.sent_by_execution (reached : Runs {} log office) {i : Nat} {envelope : Envelope}
    (sent : envelope ∈ log.sentBy i) : ∃ engine request rest,
      office.errands[i]? = some ⟨.execute engine request, rest⟩ := by
  rw [OfficeLog.sentBy_eq] at sent
  obtain ⟨deed, member, is⟩ := List.mem_filterMap.1 sent
  cases deed with
  | told other taken => exact reached.told_by_execution member
  | _ => cases is

/-- A request for a retry comes from the errand that ended the job in failure. -/
theorem Runs.retry_origin (reached : Runs {} log office) {i : Nat} {envelope : Envelope}
    (sent : envelope ∈ log.sentBy i) (type : envelope.eventType = "publish.retry_requested.v1") :
    ∃ row event, .ended row ∈ log.deeds i ∧
      envelope = Announcement.envelope row (.retryRequested event) ∧ event.Continues row ∧
      row.status = .failed ∧ row.retryCount < row.maxRetries := by
  obtain ⟨engine, request, rest, here⟩ := reached.sent_by_execution sent
  obtain ⟨stand, _, course⟩ := reached.course here
  rw [OfficeLog.sentBy_eq] at sent
  obtain ⟨row, kind, _, _, event, same, continues, ended, status, wants, _⟩ :=
    course.retry_origin sent type
  exact ⟨row, event, ended, same, continues, status, (Job.wantsRetry_iff.1 wants).2⟩

/-- What is told of a job only by who ended it is told at most once. -/
theorem Runs.sent_once (reached : Runs {} log office) (id : JobId) (ofType : String → Bool)
    (single : ∀ types ∈ Course.eventTypes, types.countP ofType ≤ 1) {isOf : Envelope → Bool}
    (typed : ∀ envelope, isOf envelope = true → ofType envelope.eventType = true)
    (own : ∀ i, ∀ envelope ∈ log.sentBy i, isOf envelope = true →
      ∃ row, .ended row ∈ log.deeds i ∧ row.id = id) : (log.sent.filter isOf).length ≤ 1 := by
  by_cases some : ∃ envelope ∈ log.sent, isOf envelope = true
  · obtain ⟨envelope, sent, is⟩ := some
    obtain ⟨i, sentHere⟩ := OfficeLog.sentBy_of_sent sent
    obtain ⟨row, ended, rfl⟩ := own i envelope sentHere is
    have only : ∀ j, ∀ other ∈ log.sentBy j, isOf other = true → j = i := by
      intro j other sentThere isToo
      obtain ⟨otherRow, endedThere, same⟩ := own j other sentThere isToo
      exact (reached.ended_once ended endedThere same).symm
    obtain ⟨engine, request, rest, here⟩ := reached.sent_by_execution sentHere
    obtain ⟨stand, _, course⟩ := reached.course here
    rw [OfficeLog.filter_sent only, OfficeLog.sentBy_eq]
    exact course.sent_once ofType single typed
  · have none : log.sent.filter isOf = [] := by
      simpa [List.filter_eq_nil_iff] using some
    simp [none]

theorem Runs.retries_once (reached : Runs {} log office) (id : JobId) :
    (log.sent.filter (·.asksRetryOf id)).length ≤ 1 := by
  refine reached.sent_once id (· == "publish.retry_requested.v1") (by decide)
    (fun envelope asks => ?_) fun i envelope sent asks => ?_
  · simpa using (Envelope.asksRetryOf_iff.1 asks).1
  · obtain ⟨type, forJob⟩ := Envelope.asksRetryOf_iff.1 asks
    obtain ⟨row, event, ended, rfl, continues, _⟩ := reached.retry_origin sent type
    refine ⟨row, ended, JobId.text_injective ?_⟩
    rw [← forJob]
    exact (congrArg JobId.text continues.jobId).symm

/-- Every request for a retry is for a stored job. -/
theorem Runs.retry_stored (reached : Runs {} log office) {envelope : Envelope}
    (sent : envelope ∈ log.sent) (type : envelope.eventType = "publish.retry_requested.v1") :
    ∃ row ∈ office.stores.jobs.rows, ∃ event,
      envelope = Announcement.envelope row (.retryRequested event) ∧ event.Continues row ∧
      row.status = .failed ∧ row.retryCount < row.maxRetries := by
  obtain ⟨i, sent⟩ := OfficeLog.sentBy_of_sent sent
  obtain ⟨row, event, ended, same, rest⟩ := reached.retry_origin sent type
  exact ⟨row, JobStore.mem_of_find? (reached.ended_stored ended).1, event, same, rest⟩

/-- Take any run of an office from its beginning, with any tasks, any order of calls and any
answers and faults. For every job at most one request for a retry is ever handed to the transport.
Each of these is for a stored job that failed and has not used up its retries, and the next attempt
has the next number. -/
theorem retry_requested_once (reached : Runs {} log office) :
    (∀ id, (log.sent.filter (·.asksRetryOf id)).length ≤ 1) ∧
    ∀ envelope ∈ log.sent, envelope.eventType = "publish.retry_requested.v1" →
      ∃ row ∈ office.stores.jobs.rows, ∃ event,
        envelope = Announcement.envelope row (.retryRequested event) ∧
        envelope.aggregateId = row.id.text ∧ row.status = .failed ∧
        row.retryCount < row.maxRetries ∧ event.nextAttempt.toNat = row.retryCount.toNat + 1 := by
  refine ⟨reached.retries_once, fun envelope sent type => ?_⟩
  obtain ⟨row, member, event, rfl, continues, status, budget⟩ := reached.retry_stored sent type
  exact ⟨row, member, event, rfl, congrArg JobId.text continues.jobId, status, budget,
    continues.nextAttempt_toNat budget⟩

open Rehearsal in
/-- A delivery is refused for a rate limit and asks for a retry; the second delivery does not. -/
theorem retry_requested_once_twice : ∃ log office, Runs {} log office ∧
    (∃ envelope ∈ log.sent, envelope.eventType = "publish.retry_requested.v1") ∧
    (∀ id, (log.sent.filter (·.asksRetryOf id)).length ≤ 1) ∧
    ∃ row ∈ office.stores.jobs.rows, row.status = .failed ∧ row.retryCount < row.maxRetries := by
  have reached := (Cast.twice_isRun [] [.rateLimited "slow down", .rateLimited "slow down"]).1
  obtain ⟨once, told⟩ := retry_requested_once reached
  obtain ⟨envelope, sent, type⟩ : ∃ envelope ∈
      (Cast.twice [] [.rateLimited "slow down", .rateLimited "slow down"]).log.sent,
      envelope.eventType = "publish.retry_requested.v1" := by
    decide +kernel
  obtain ⟨row, member, _, _, _, status, budget, _⟩ := told envelope sent type
  exact ⟨_, _, reached, ⟨envelope, sent, type⟩, once, row, member, status, budget⟩

end Office

end Syndication
