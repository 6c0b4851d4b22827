import Syndication.Proofs.NextAttempt
import Syndication.Proofs.Redelivery

namespace Syndication

namespace Engine

variable {engine : Engine} {s : Stores}

/-- A delivery may come to the row that has the key of its request. -/
theorem mayResolve_of_key (sound : s.Sound) {row : Job} (member : row ∈ s.jobs.rows)
    {request : Request} (valid : request.validate = .ok ()) {key : String}
    (has : row.idempotencyKey = some key) (asks : request.idempotencyKey = some key)
    (fits : row.matchesRequest request = true) :
    ∃ log t, engine.Delivers request s log t ∧ engine.Resolves request log row.id := by
  obtain ⟨first, begun⟩ := (openJob_mayReach sound member valid has asks fits _).toServices
  obtain ⟨rest, begins⟩ :
      ∃ rest, (engine.execute request).run.Plays Stores.Replies s first rest s := by
    simp only [execute, Action.run_bind]
    exact ⟨_, begun.bind_left _⟩
  obtain ⟨second, last, t, ended, isOver⟩ := Program.exists_plays Stores.Replies.total rest s
  exact ⟨first ++ second, t, ⟨last, begins.trans ended, isOver⟩,
    first, second, row, rfl, rfl, begun.follows⟩

theorem key_of_resolves (sound : s.Sound) {row : Job} (member : row ∈ s.jobs.rows)
    {request : Request} {log : List Services.Exchange} {t : Stores}
    (delivers : engine.Delivers request s log t) (resolves : engine.Resolves request log row.id) :
    request.idempotencyKey = row.idempotencyKey := by
  obtain ⟨first, second, job, rfl, sameId, follows⟩ := resolves
  obtain ⟨rest, plays, _⟩ := delivers
  simp only [execute, Action.run_bind] at plays
  obtain ⟨u, begun, _⟩ := plays.split_bind follows
  have contract : (Ledger.openJob engine.retryBudget request).toServices.Ensures
      (.publishing False) _ s :=
    ((Ledger.openJob_ensures sound _ request).and (Ledger.openJob_key sound _ request)).toServices
  obtain ⟨_, later, opened⟩ := contract.meets.plays sound begun
  obtain ⟨⟨found, _⟩, sameKey⟩ := opened job rfl
  obtain ⟨row', found', same, _⟩ := later.row (sound.find?_iff.2 ⟨member, rfl⟩)
  rw [sameId, found'] at found
  cases found
  rw [← sameKey]
  simpa using congrArg Job.idempotencyKey same

end Engine

namespace RetryEvent.Continues

variable {event : RetryEvent} {job : Job} (continues : event.Continues job)
include continues

theorem nextRequest_key {key : String} (has : job.idempotencyKey = some key) (id : EventId)
    (scheduledAt : Timestamp) : (event.nextRequest id scheduledAt).idempotencyKey =
      some (nextKey key (job.retryCount + 1)) := by
  rw [nextRequest, continues.idempotencyKey, has, continues.nextAttempt]
  rfl

/-- The next attempt has the key of this one exactly if that is a key of the next attempt. -/
theorem nextRequest_key_iff (budget : job.retryCount < job.maxRetries) {key : String}
    (has : job.idempotencyKey = some key) (id : EventId) (scheduledAt : Timestamp) :
    (event.nextRequest id scheduledAt).idempotencyKey = some key ↔
      IsAttemptKey key (job.retryCount.toNat + 1) := by
  rw [continues.nextRequest_key has, Option.some.injEq, nextKey_eq_self_iff,
    ← continues.nextAttempt, continues.nextAttempt_toNat budget]

end RetryEvent.Continues

namespace Office

variable {log : OfficeLog} {office : Office}

theorem Runs.retry_resolves_iff (reached : Runs {} log office) {row : Job} {event : RetryEvent}
    (member : row ∈ office.stores.jobs.rows)
    (sent : Announcement.envelope row (.retryRequested event) ∈ log.sent) {key : String}
    (has : row.idempotencyKey = some key) (id : EventId) (scheduledAt : Timestamp)
    (engine : Engine) :
    (∃ calls later, engine.Delivers (event.nextRequest id scheduledAt) office.stores calls later ∧
      engine.Resolves (event.nextRequest id scheduledAt) calls row.id) ↔
      IsAttemptKey key (row.retryCount.toNat + 1) := by
  have sound := (reached.sound .empty).1.stores
  obtain ⟨continues, _, budget⟩ := reached.retry_continues member sent
  have fresh : row.work.IsFresh := sound.asked _ (List.mem_map_of_mem member)
  rw [← continues.nextRequest_key_iff budget has id scheduledAt]
  constructor
  · rintro ⟨calls, later, delivers, resolves⟩
    rw [Engine.key_of_resolves sound member delivers resolves, has]
  · intro sameKey
    exact Engine.mayResolve_of_key sound member (continues.nextRequest_valid fresh id scheduledAt)
      has sameKey (continues.matchesRequest fresh id scheduledAt)

/-- When a retry is lost by its key. Take any run of an office from its beginning, with any tasks,
any order of calls and any answers and faults, and a retry that was requested for a job with a key.
The request for the next attempt has the key of the failed job exactly if this key is a part without
an attempt mark, the mark and the number of the next attempt; and exactly then it may be resolved
to the failed job when it is delivered. Two such requests have the same key exactly if the keys of
their jobs have the same part before their first attempt mark, and their attempts the same
number. -/
theorem retry_key_iff (reached : Runs {} log office) {row : Job} {event : RetryEvent}
    (member : row ∈ office.stores.jobs.rows)
    (sent : Announcement.envelope row (.retryRequested event) ∈ log.sent) {key : String}
    (has : row.idempotencyKey = some key) (id : EventId) (scheduledAt : Timestamp) :
    ((event.nextRequest id scheduledAt).idempotencyKey = some key ↔
      IsAttemptKey key (row.retryCount.toNat + 1)) ∧
    (∀ engine : Engine, (∃ calls later,
      engine.Delivers (event.nextRequest id scheduledAt) office.stores calls later ∧
        engine.Resolves (event.nextRequest id scheduledAt) calls row.id) ↔
      IsAttemptKey key (row.retryCount.toNat + 1)) ∧
    ∀ other ∈ office.stores.jobs.rows, ∀ more,
      Announcement.envelope other (.retryRequested more) ∈ log.sent →
      ∀ otherKey, other.idempotencyKey = some otherKey → ∀ otherId otherTime,
        ((event.nextRequest id scheduledAt).idempotencyKey =
          (more.nextRequest otherId otherTime).idempotencyKey ↔
          keyBase key = keyBase otherKey ∧ row.retryCount = other.retryCount) := by
  obtain ⟨continues, _, budget⟩ := reached.retry_continues member sent
  refine ⟨continues.nextRequest_key_iff budget has id scheduledAt,
    reached.retry_resolves_iff member sent has id scheduledAt, ?_⟩
  intro other otherMember more otherSent otherKey otherHas otherId otherTime
  obtain ⟨otherContinues, _, _⟩ := reached.retry_continues otherMember otherSent
  rw [continues.nextRequest_key has, otherContinues.nextRequest_key otherHas, Option.some.injEq,
    RetryEvent.nextKey_eq_iff, UInt32.add_left_inj]

theorem isAttemptKey_first : IsAttemptKey "key-1#attempt-1" 1 := by
  refine ⟨"key-1".toList, rfl, ?_⟩
  rw [Text.decimal, if_pos (by decide)]
  decide

open Rehearsal in
/-- A request whose key looks like that of a later attempt is refused for a rate limit. The retry
that is asked for has the same key, and may be resolved to the job that failed. -/
theorem retry_swallowed : ∃ log office, Runs {} log office ∧
    ∃ row ∈ office.stores.jobs.rows, ∃ event,
      Announcement.envelope row (.retryRequested event) ∈ log.sent ∧ row.status = .failed ∧
      row.idempotencyKey = some "key-1#attempt-1" ∧ row.retryCount = 0 ∧
      ∀ id scheduledAt,
        (event.nextRequest id scheduledAt).idempotencyKey = row.idempotencyKey ∧
        ∃ calls later,
          Cast.engine.Delivers (event.nextRequest id scheduledAt) office.stores calls later ∧
          Cast.engine.Resolves (event.nextRequest id scheduledAt) calls row.id := by
  have reached := (Cast.once_isRun (Cast.keyed "key-1#attempt-1") [.rateLimited "slow down"]).1
  obtain ⟨envelope, sent, type⟩ : ∃ envelope ∈
      (Cast.once (Cast.keyed "key-1#attempt-1") [.rateLimited "slow down"]).log.sent,
      envelope.eventType = "publish.retry_requested.v1" := by
    decide +kernel
  have rows : ∀ row ∈ (Cast.once (Cast.keyed "key-1#attempt-1")
      [.rateLimited "slow down"]).office.stores.jobs.rows,
      row.idempotencyKey = some "key-1#attempt-1" ∧ row.retryCount = 0 := by
    decide +kernel
  obtain ⟨row, member, event, rfl, continues, status, budget⟩ := reached.retry_stored sent type
  obtain ⟨has, first⟩ := rows row member
  have isNext : IsAttemptKey "key-1#attempt-1" (row.retryCount.toNat + 1) := by
    rw [first]
    exact isAttemptKey_first
  refine ⟨_, _, reached, row, member, event, sent, status, has, first, fun id scheduledAt => ?_⟩
  constructor
  · rw [has]
    exact (continues.nextRequest_key_iff budget has id scheduledAt).2 isNext
  · exact (reached.retry_resolves_iff member sent has id scheduledAt Cast.engine).2 isNext

open Rehearsal in
/-- The retry of a job whose key has no attempt mark has a key of its own. -/
theorem retry_key_plain : ∃ log office, Runs {} log office ∧
    ∃ row ∈ office.stores.jobs.rows, ∃ event,
      Announcement.envelope row (.retryRequested event) ∈ log.sent ∧
      row.idempotencyKey = some "key-1" ∧
      ∀ id scheduledAt, (event.nextRequest id scheduledAt).idempotencyKey ≠ some "key-1" := by
  have reached := (Cast.once_isRun Cast.request [.rateLimited "slow down"]).1
  obtain ⟨envelope, sent, type⟩ : ∃ envelope ∈
      (Cast.once Cast.request [.rateLimited "slow down"]).log.sent,
      envelope.eventType = "publish.retry_requested.v1" := by
    decide +kernel
  have rows : ∀ row ∈ (Cast.once Cast.request [.rateLimited "slow down"]).office.stores.jobs.rows,
      row.idempotencyKey = some "key-1" := by
    decide +kernel
  obtain ⟨row, member, event, rfl, _⟩ := reached.retry_stored sent type
  have has := rows row member
  refine ⟨_, _, reached, row, member, event, sent, has, fun id scheduledAt same => ?_⟩
  obtain ⟨base, _, parts⟩ := (retry_key_iff reached member sent has id scheduledAt).1.1 same
  have mark : '#' ∈ "key-1".toList := by
    rw [parts, attemptMark_toList]
    simp
  exact absurd mark (by decide)

end Office

end Syndication
