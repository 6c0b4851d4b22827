import Syndication.Proofs.Rehearsal

namespace Syndication

theorem Event.eq_succeeded {event : Event} (type : event.typeName = "publish.succeeded.v1") :
    ∃ success, event = .succeeded success := by
  cases event with
  | succeeded success => exact ⟨success, rfl⟩
  | _ => simp [typeName] at type

theorem Event.eq_failed {event : Event} (type : event.typeName = "publish.failed.v1") :
    ∃ failure, event = .failed failure := by
  cases event with
  | failed failure => exact ⟨failure, rfl⟩
  | _ => simp [typeName] at type

/-- The envelopes that were handed to the transport, whether or not it took them. -/
def OfficeLog.sent (log : OfficeLog) : List Envelope :=
  log.filterMap fun
    | (_, ⟨.records (.send envelope), _⟩) => some envelope
    | _ => none

theorem OfficeLog.mem_sent {log : OfficeLog} {envelope : Envelope} (member : envelope ∈ log.sent) :
    ∃ i, ∃ answer : Except ServiceFault Unit,
      (i, ⟨.records (.send envelope), answer⟩) ∈ log := by
  obtain ⟨⟨i, ⟨c, answer⟩⟩, inLog, found⟩ := List.mem_filterMap.1 member
  split at found
  · rename_i same
    cases same
    cases found
    exact ⟨_, _, inLog⟩
  · cases found

namespace Office

variable {past future : OfficeLog} {office later : Office}

/-- Every announcement that was tried agrees with the stores. -/
theorem Runs.sent_agrees (reached : Runs {} past office) {envelope : Envelope}
    (member : envelope ∈ past.sent) : ∃ job event,
      envelope = Announcement.envelope job event ∧ event.jobId = job.id ∧
        event.Agrees office.stores := by
  obtain ⟨i, answer, inLog⟩ := OfficeLog.mem_sent member
  obtain ⟨_, _, s, t, _, _, permitted, answered, onward⟩ := reached.answered .empty inLog
  obtain ⟨job, event, same, about, agrees⟩ := permitted
  obtain rfl : t = s := answered
  exact ⟨job, event, same, about, agrees.later onward⟩

/-- Every answer of a finished execution agrees with the stores. -/
theorem Runs.executed_agrees (reached : Runs {} past office) {errand : Errand}
    (member : errand ∈ office.errands) {execution : Execution}
    (finished : errand.rest = .done (.ok (.executed execution))) :
    execution.Agrees office.stores := by
  have fits := (reached.sound .empty).1.errands errand member
  rw [finished] at fits
  exact (fits _ rfl).2 execution rfl

/-- No job has both ends announced. -/
theorem Runs.not_both_ends (reached : Runs {} past office) {good bad : Envelope}
    (goodSent : good ∈ past.sent) (badSent : bad ∈ past.sent)
    (succeeded : good.eventType = "publish.succeeded.v1")
    (failed : bad.eventType = "publish.failed.v1") : good.aggregateId ≠ bad.aggregateId := by
  intro same
  obtain ⟨job, event, rfl, _, agrees⟩ := reached.sent_agrees goodSent
  obtain ⟨other, event', rfl, _, agrees'⟩ := reached.sent_agrees badSent
  obtain ⟨success, rfl⟩ := Event.eq_succeeded succeeded
  obtain ⟨failure, rfl⟩ := Event.eq_failed failed
  have sameJob : success.jobId = failure.jobId := JobId.text_injective same
  obtain ⟨post, ⟨row, found, status, _⟩, _⟩ := agrees
  obtain ⟨row', found', status', _⟩ := agrees'
  rw [← sameJob, found] at found'
  cases found'
  simp [status] at status'

/-- Terminal agreement. Take any run of an office from its beginning, with any tasks, any order of
calls and any answers and faults, and any way it goes on from there. A finished row is the only
row of its job and stays as it is. Whatever was announced as the end of a job, and whatever an
execution answered as its end, is what the job's row says: a success with the one post that is
stored for it, or a failure with the stored message. No job is announced both as succeeded and as
failed. -/
theorem terminal_agreement (reached : Runs {} past office) (onward : Runs office future later) :
    (∀ row ∈ office.stores.jobs.rows, row.isTerminal = true →
      row ∈ later.stores.jobs.rows ∧ ∀ other ∈ later.stores.jobs.rows, other.id = row.id →
        other = row) ∧
    (∀ envelope ∈ past.sent, ∃ job event, envelope = Announcement.envelope job event ∧
      event.jobId = job.id ∧ event.Agrees office.stores) ∧
    (∀ errand ∈ office.errands, ∀ execution,
      errand.rest = .done (.ok (.executed execution)) → execution.Agrees office.stores) ∧
    (∀ good ∈ past.sent, ∀ bad ∈ past.sent, good.eventType = "publish.succeeded.v1" →
      bad.eventType = "publish.failed.v1" → good.aggregateId ≠ bad.aggregateId) := by
  obtain ⟨sound, _⟩ := reached.sound .empty
  obtain ⟨soundLater, moved⟩ := onward.sound sound
  refine ⟨fun row member finished => ?_, fun envelope => reached.sent_agrees,
    fun errand member execution => reached.executed_agrees member,
    fun good goodSent bad badSent => reached.not_both_ends goodSent badSent⟩
  have kept := moved.finished (sound.stores.find?_iff.2 ⟨member, rfl⟩) finished
  refine ⟨JobStore.mem_of_find? kept, fun other member same => ?_⟩
  have found := soundLater.stores.find?_iff.2 ⟨member, same⟩
  rw [kept] at found
  cases found
  rfl

open Rehearsal in
/-- Of two deliveries of one request the first one is published, and the second one finds the job
finished. -/
theorem terminal_agreement_twice : ∃ past office, Runs {} past office ∧
    past.sent.map (·.eventType) = ["publish.started.v1", "publish.succeeded.v1"] ∧
    (∀ row ∈ office.stores.jobs.rows, row.isTerminal = true → row ∈ office.stores.jobs.rows ∧
      ∀ other ∈ office.stores.jobs.rows, other.id = row.id → other = row) ∧
    ∀ errand ∈ office.errands, ∀ execution,
      errand.rest = .done (.ok (.executed execution)) → execution.Agrees office.stores := by
  have run := (Cast.twice_isRun [] []).1
  have agreement := terminal_agreement run .refl
  exact ⟨_, _, run, by decide +kernel, agreement.1, agreement.2.2.1⟩

/-- Every success has its record. Take any run of an office from its beginning and any way it goes
on from there. Every success has exactly one post, which says of its job, its account and its
platform what the row says, which stays the only one, and which is found whenever the posts of the
job are read and the read does not fail. Executions never find a post missing that they look
for. -/
theorem every_success_recorded (reached : Runs {} past office)
    (onward : Runs office future later) :
    (∀ row ∈ office.stores.jobs.rows, row.status = .success →
      ∃ post, office.stores.posts.of row.id = [post] ∧ post.jobId = row.id ∧
        post.accountId = row.accountId ∧ post.platform = row.platform ∧
        later.stores.posts.of row.id = [post] ∧
        ∀ i found, (i, ⟨.records (.findPost row.id), .ok found⟩) ∈ future → found = some post) ∧
    (∀ i id found, (i, ⟨.records (.findPost id), .ok found⟩) ∈ past →
      ∀ engine request rest, office.errands[i]? = some ⟨.execute engine request, rest⟩ →
        found.isSome = true) := by
  obtain ⟨sound, _⟩ := reached.sound .empty
  obtain ⟨_, moved⟩ := onward.sound sound
  constructor
  · intro row member success
    obtain ⟨post, only⟩ := sound.stores.posted row member success
    have inPosts : post ∈ office.stores.posts.rows ∧ post.jobId = row.id := by
      rw [← PostStore.mem_of, only]
      exact List.mem_singleton_self post
    obtain ⟨account, platform⟩ := sound.stores.owner_eq member inPosts.1 inPosts.2
    refine ⟨post, only, inPosts.2, account, platform, moved.post only, fun i found inLog => ?_⟩
    obtain ⟨_, _, s, t, begun, _, _, answered, _⟩ := onward.answered sound inLog
    obtain ⟨rfl, _⟩ := answered
    exact Stores.find?_of_eq (begun.post only)
  · -- an execution is permitted to look only for a post that is there
    intro i id found inLog engine request rest here
    obtain ⟨errand, here', s, t, _, _, permitted, answered, _⟩ := reached.answered .empty inLog
    obtain rfl : ⟨.execute engine request, rest⟩ = errand := by simpa [here] using here'
    rcases permitted with ⟨post, only⟩ | impossible
    · obtain ⟨rfl, _⟩ := answered
      simp [Stores.find?_of_eq only]
    · cases impossible

open Rehearsal in
theorem every_success_recorded_twice : ∃ past office row, Runs {} past office ∧
    row ∈ office.stores.jobs.rows ∧ row.status = .success ∧
      ∃ post, office.stores.posts.of row.id = [post] := by
  have run := (Cast.twice_isRun [] []).1
  obtain ⟨row, member, success⟩ : ∃ row ∈ (Cast.twice [] []).office.stores.jobs.rows,
      row.status = .success := by decide +kernel
  obtain ⟨post, only, _⟩ := (every_success_recorded run .refl).1 row member success
  exact ⟨_, _, row, run, member, success, post, only⟩

end Office

end Syndication
