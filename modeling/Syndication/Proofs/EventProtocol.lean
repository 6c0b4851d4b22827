import Syndication.Proofs.Histories

namespace Syndication

namespace Deed

def envelope? : Deed → Option Envelope
  | .told envelope _ => some envelope
  | _ => none

/-- The envelopes among deeds, whether or not the transport took them. -/
def envelopes (deeds : List Deed) : List Envelope := deeds.filterMap envelope?

@[simp] theorem envelopes_nil : envelopes [] = [] := rfl

@[simp] theorem envelopes_told (envelope : Envelope) (taken : Bool) (deeds : List Deed) :
    envelopes (told envelope taken :: deeds) = envelope :: envelopes deeds := rfl

@[simp] theorem envelopes_ended (job : Job) (deeds : List Deed) :
    envelopes (ended job :: deeds) = envelopes deeds := rfl

@[simp] theorem envelopes_append (deeds more : List Deed) :
    envelopes (deeds ++ more) = envelopes deeds ++ envelopes more := List.filterMap_append

theorem envelopes_asks {asks : List Deed} (asked : ∀ deed ∈ asks, deed.IsAsked) :
    envelopes asks = [] := by
  refine List.filterMap_eq_nil_iff.2 fun deed member => ?_
  obtain ⟨result, rfl⟩ := asked deed member
  rfl

def result? : Deed → Option PublishResult
  | .asked result => result
  | _ => none

/-- What publishers came to. -/
def results (deeds : List Deed) : List PublishResult := deeds.filterMap result?

@[simp] theorem results_append (deeds more : List Deed) :
    results (deeds ++ more) = results deeds ++ results more := List.filterMap_append

theorem mem_results {deeds : List Deed} {result : PublishResult} :
    result ∈ results deeds ↔ .asked (some result) ∈ deeds := by
  rw [results, List.mem_filterMap]
  constructor
  · rintro ⟨deed, member, is⟩
    cases deed with
    | asked other =>
      obtain rfl : other = some result := is
      exact member
    | _ => cases is
  · exact fun member => ⟨_, member, rfl⟩

end Deed

@[simp] theorem Announcement.envelope_eventType (job : Job) (event : Event) :
    (Announcement.envelope job event).eventType = event.typeName := rfl

/-- The envelopes that the errand with this number handed to the transport. -/
def OfficeLog.sentBy (log : OfficeLog) (i : Nat) : List Envelope :=
  (log.of i).filterMap fun
    | ⟨.records (.send envelope), _⟩ => some envelope
    | _ => none

/-- The envelope tells how a job ended. -/
def Envelope.tellsEnd (envelope : Envelope) : Bool :=
  envelope.eventType == "publish.succeeded.v1" || envelope.eventType == "publish.failed.v1"

/-- The envelope carries the identifier and the user of the job. -/
structure Envelope.IsFor (envelope : Envelope) (job : Job) : Prop where
  aggregate : envelope.aggregateId = job.id.text
  correlation : envelope.metadata.correlationId = some job.id.text
  user : envelope.metadata.userId = some job.userId.text

theorem Announcement.envelope_isFor {job row : Job} {event : Event} (same : row.work = job.work)
    (forRow : event.jobId = row.id) : (Announcement.envelope row event).IsFor job := by
  have sameId := Job.id_eq_of_work_eq same
  have sameUser := Job.userId_eq_of_work_eq same
  constructor
  · exact congrArg JobId.text (forRow.trans sameId)
  · exact congrArg (fun id => some (JobId.text id)) sameId
  · exact congrArg (fun user => some (UserId.text user)) sameUser

theorem OfficeLog.sentBy_eq (log : OfficeLog) (i : Nat) :
    log.sentBy i = Deed.envelopes (log.deeds i) := by
  rw [sentBy, deeds, Deed.envelopes, List.filterMap_filterMap]
  congr 1
  funext exchange
  obtain ⟨c, answer⟩ := exchange
  cases c with
  | records c =>
    cases c with
    | updateJob job =>
      cases answer with
      | error fault => rfl
      | ok written =>
        cases written <;> cases finished : job.isTerminal <;>
          simp [Deed.of?, Deed.ofRecord?, finished, Deed.envelope?]
    | _ => rfl
  | publish platform context => cases answer <;> rfl
  | _ => rfl

theorem OfficeLog.mem_results {log : OfficeLog} {i : Nat} {result : PublishResult} :
    result ∈ Deed.results (log.deeds i) ↔
      ∃ publisher context, ⟨.publish publisher context, .ok result⟩ ∈ log.of i := by
  rw [Deed.mem_results, deeds, List.mem_filterMap]
  constructor
  · rintro ⟨exchange, member, is⟩
    obtain ⟨publisher, context, rfl⟩ := Deed.of?_eq_result is
    exact ⟨publisher, context, member⟩
  · rintro ⟨publisher, context, member⟩
    exact ⟨_, member, rfl⟩

namespace Closing

variable {job : Job} {complete : Prop} {closing : List Deed}
  {stand : Stand (Except PublishError Execution)}

theorem types (closes : Closing job complete closing stand) :
    (Deed.envelopes closing).map (·.eventType) ∈ [[], ["publish.succeeded.v1"],
      ["publish.failed.v1"], ["publish.failed.v1", "publish.retry_requested.v1"]] := by
  cases closes <;> simp [Event.typeName]

theorem envelopes_isFor (closes : Closing job complete closing stand) :
    ∀ envelope ∈ Deed.envelopes closing, envelope.IsFor job := by
  cases closes with
  | toldSuccess same forRow | toldFailure same forRow | succeeded same forRow _
  | failing same forRow _ _ | failed same forRow _ _ =>
    exact List.forall_mem_singleton.2 (Announcement.envelope_isFor same forRow)
  | retried same forRow _ _ continues =>
    refine List.forall_mem_cons.2 ⟨Announcement.envelope_isFor same forRow, ?_⟩
    exact List.forall_mem_singleton.2 (Announcement.envelope_isFor same continues.jobId)
  | _ => simp

theorem ends_once {execution : Execution} (is : complete)
    (closes : Closing job complete closing (.ended (.ok execution))) :
    (Deed.envelopes closing).countP (·.tellsEnd) = 1 ∧ execution.job.id = job.id := by
  cases closes with
  | broken none => exact absurd rfl (none execution)
  | unsettled incomplete => exact absurd is incomplete
  | toldSuccess same _ | toldFailure same _ | succeeded same _ _ | failed same _ _ _
  | retried same _ _ _ _ =>
    exact ⟨by simp [Envelope.tellsEnd, Event.typeName], Job.id_eq_of_work_eq same⟩

/-- A retry is asked for by the execution that ended the job, as its last deed. -/
theorem retry_origin (closes : Closing job complete closing stand) {envelope : Envelope}
    (member : envelope ∈ Deed.envelopes closing)
    (type : envelope.eventType = "publish.retry_requested.v1") :
    ∃ row kind message asked retry, envelope = Announcement.envelope row (.retryRequested retry) ∧
      RetryEvent.Continues retry row ∧ .ended row ∈ closing ∧ row.status = .failed ∧
      row.WantsRetry kind ∧ stand = .ended (.ok ⟨row, .failed kind message asked⟩) := by
  cases closes with
  | retried same forRow status wants continues =>
    rcases List.mem_cons.1 member with rfl | last
    · simp [Event.typeName] at type
    · obtain rfl := List.mem_singleton.1 last
      exact ⟨_, _, _, _, _, rfl, continues, by simp, status, wants, rfl⟩
  | broken _ | unsettled _ | recorded _ _ => cases member
  | toldSuccess _ _ | toldFailure _ _ | succeeded _ _ _ | failing _ _ _ _ | failed _ _ _ _ =>
    obtain rfl := List.mem_singleton.1 member
    simp [Event.typeName] at type

/-- Once it failed the job, nothing can keep an execution from its end. -/
theorem failed_ends (closes : Closing job complete closing stand) {row : Job}
    (ended : .ended row ∈ closing) (status : row.status = .failed) :
    stand = .underway ∨ ∃ kind message asked,
      stand = .ended (.ok ⟨row, .failed kind message asked⟩) ∧
      (row.WantsRetry kind → ∃ envelope ∈ Deed.envelopes closing,
        envelope.eventType = "publish.retry_requested.v1") := by
  cases closes with
  | recorded _ _ | failing _ _ _ _ => exact .inl rfl
  | succeeded _ _ success =>
    obtain rfl : row = _ := by simpa using ended
    rw [status] at success
    cases success
  | failed _ _ _ done =>
    obtain rfl : row = _ := by simpa using ended
    exact .inr ⟨_, _, _, rfl, fun wants => absurd wants done⟩
  | retried _ _ _ _ _ =>
    obtain rfl : row = _ := by simpa using ended
    refine .inr ⟨_, _, _, rfl, fun _ => ?_⟩
    exact ⟨_, List.mem_cons_of_mem _ (List.mem_singleton_self _), rfl⟩
  | _ => simp at ended

end Closing

theorem Envelope.IsFor.of_work_eq {envelope : Envelope} {job row : Job} (isFor : envelope.IsFor job)
    (same : row.work = job.work) : envelope.IsFor row := by
  have sameId := Job.id_eq_of_work_eq same
  have sameUser := Job.userId_eq_of_work_eq same
  constructor
  · rw [sameId, isFor.aggregate]
  · rw [sameId, isFor.correlation]
  · rw [sameUser, isFor.user]

namespace Course

variable {s : Stores} {deeds : List Deed} {stand : Stand (Except PublishError Execution)}

/-- The types of the events that an execution may have tried to send. -/
abbrev eventTypes : List (List String) :=
  [[], ["publish.started.v1"], ["publish.started.v1", "publish.succeeded.v1"],
    ["publish.started.v1", "publish.failed.v1"],
    ["publish.started.v1", "publish.failed.v1", "publish.retry_requested.v1"]]

theorem types (course : Course s deeds stand) :
    (Deed.envelopes deeds).map (·.eventType) ∈ eventTypes := by
  cases course with
  | untold _ => simp
  | refused _ _ => simp [Event.typeName]
  | accepted _ _ asked closes =>
    have types := closes.types
    simp only [Deed.envelopes_told, Deed.envelopes_append, Deed.envelopes_asks asked,
      List.nil_append, List.map_cons, Announcement.envelope_eventType, Event.typeName]
    simpa using types

/-- An execution tries to send at most one event of a kind, if so much can be seen from the types
of events. -/
theorem sent_once (course : Course s deeds stand) (ofType : String → Bool)
    (single : ∀ types ∈ eventTypes, types.countP ofType ≤ 1) {isOf : Envelope → Bool}
    (typed : ∀ envelope, isOf envelope = true → ofType envelope.eventType = true) :
    ((Deed.envelopes deeds).filter isOf).length ≤ 1 := by
  rw [← List.countP_eq_length_filter]
  calc (Deed.envelopes deeds).countP isOf
    _ ≤ (Deed.envelopes deeds).countP (fun envelope => ofType envelope.eventType) :=
      List.countP_mono_left fun envelope _ => typed envelope
    _ = ((Deed.envelopes deeds).map (·.eventType)).countP ofType := (List.countP_map ..).symm
    _ ≤ 1 := single _ course.types

/-- Nobody but the records is asked before the start was taken. -/
theorem started_before (course : Course s deeds stand) {before after : List Deed}
    {result : Option PublishResult} (parts : deeds = before ++ .asked result :: after) :
    ∃ envelope, envelope.eventType = "publish.started.v1" ∧ .told envelope true ∈ before := by
  cases course with
  | untold _ => simp at parts
  | refused _ _ => cases before <;> simp at parts
  | @accepted job start _ _ _ _ _ _ _ =>
    cases before with
    | nil => simp at parts
    | cons first rest =>
      obtain ⟨rfl, _⟩ := List.cons.inj parts
      exact ⟨Announcement.envelope job (.started start), rfl, List.mem_cons_self ..⟩

theorem isFor_row (course : Course s deeds stand) (told : Deed.envelopes deeds ≠ [])
    (complete : ∀ result, .asked (some result) ∈ deeds → result.IsComplete) :
    ∃ row ∈ s.jobs.rows, (∀ envelope ∈ Deed.envelopes deeds, envelope.IsFor row) ∧
      ∀ execution, stand = .ended (.ok execution) → execution.job.id = row.id ∧
        (Deed.envelopes deeds).countP (·.tellsEnd) = 1 := by
  cases course with
  | untold _ => simp at told
  | @refused job start _ hasRow forJob =>
    obtain ⟨row, found, same⟩ := hasRow
    have isFor : (Announcement.envelope job (.started start)).IsFor job :=
      Announcement.envelope_isFor rfl forJob
    refine ⟨row, JobStore.mem_of_find? found, ?_, by simp⟩
    exact List.forall_mem_singleton.2 (isFor.of_work_eq same)
  | @accepted job start asks closing _ hasRow forJob asked closes =>
    obtain ⟨row, found, same⟩ := hasRow
    have only : Deed.envelopes (asks ++ closing) = Deed.envelopes closing := by
      rw [Deed.envelopes_append, Deed.envelopes_asks asked, List.nil_append]
    refine ⟨row, JobStore.mem_of_find? found, ?_, ?_⟩
    · rw [Deed.envelopes_told, only]
      intro envelope member
      refine Envelope.IsFor.of_work_eq ?_ same
      rcases List.mem_cons.1 member with rfl | member
      · exact Announcement.envelope_isFor rfl forJob
      · exact closes.envelopes_isFor envelope member
    · rintro execution rfl
      obtain ⟨once, sameId⟩ := closes.ends_once fun result asked =>
        complete result (List.mem_cons_of_mem _ (List.mem_append_left _ asked))
      refine ⟨sameId.trans (Job.id_eq_of_work_eq same).symm, ?_⟩
      rw [Deed.envelopes_told, only]
      simpa [Envelope.tellsEnd, Event.typeName] using once

theorem retry_origin (course : Course s deeds stand) {envelope : Envelope}
    (member : envelope ∈ Deed.envelopes deeds)
    (type : envelope.eventType = "publish.retry_requested.v1") :
    ∃ row kind message asked retry, envelope = Announcement.envelope row (.retryRequested retry) ∧
      RetryEvent.Continues retry row ∧ .ended row ∈ deeds ∧ row.status = .failed ∧
      row.WantsRetry kind ∧ stand = .ended (.ok ⟨row, .failed kind message asked⟩) := by
  cases course with
  | untold _ => cases member
  | refused _ _ =>
    obtain rfl := List.mem_singleton.1 member
    simp [Event.typeName] at type
  | accepted _ _ asked closes =>
    rw [Deed.envelopes_told, Deed.envelopes_append, Deed.envelopes_asks asked] at member
    rcases List.mem_cons.1 member with rfl | member
    · simp [Event.typeName] at type
    · obtain ⟨row, kind, message, taken, retry, same, continues, ended, rest⟩ :=
        closes.retry_origin member type
      refine ⟨row, kind, message, taken, retry, same, continues, ?_, rest⟩
      exact List.mem_cons_of_mem _ (List.mem_append_right _ ended)

theorem failed_ends (course : Course s deeds stand) {row : Job} (ended : .ended row ∈ deeds)
    (status : row.status = .failed) :
    stand = .underway ∨ ∃ kind message asked,
      stand = .ended (.ok ⟨row, .failed kind message asked⟩) ∧
      (row.WantsRetry kind → ∃ envelope ∈ Deed.envelopes deeds,
        envelope.eventType = "publish.retry_requested.v1") := by
  cases course with
  | untold _ => cases ended
  | refused _ _ => simp at ended
  | accepted _ _ asked closes =>
    obtain impossible | member := List.mem_cons.1 ended
    · cases impossible
    · rcases List.mem_append.1 member with inAsks | inClosing
      · obtain ⟨result, impossible⟩ := asked _ inAsks
        cases impossible
      · refine (closes.failed_ends inClosing status).imp_right ?_
        rintro ⟨kind, message, taken, rfl, retries⟩
        refine ⟨kind, message, taken, rfl, fun wants => ?_⟩
        obtain ⟨envelope, sent, type⟩ := retries wants
        exact ⟨envelope, by simp [sent], type⟩

end Course

namespace Office

variable {log : OfficeLog} {office : Office} {i : Nat} {engine : Engine} {request : Request}
  {rest : Program Services (Except PublishError Reply)}

theorem Runs.asked_after_start (reached : Runs {} log office)
    (here : office.errands[i]? = some ⟨.execute engine request, rest⟩)
    {before after : List Services.Exchange} {exchange : Services.Exchange}
    (parts : log.of i = before ++ exchange :: after) (outside : ∀ c, exchange.1 ≠ .records c) :
    ∃ envelope, envelope.eventType = "publish.started.v1" ∧
      ⟨.records (.send envelope), .ok ()⟩ ∈ before := by
  obtain ⟨stand, _, course⟩ := reached.course here
  obtain ⟨result, asked⟩ := Deed.of?_of_outside outside
  have deeds : log.deeds i =
      before.filterMap Deed.of? ++ .asked result :: after.filterMap Deed.of? := by
    rw [OfficeLog.deeds, parts, List.filterMap_append, List.filterMap_cons_some asked]
  obtain ⟨envelope, type, told⟩ := course.started_before deeds
  obtain ⟨call, member, is⟩ := List.mem_filterMap.1 told
  obtain ⟨answer, rfl, taken⟩ := Deed.of?_eq_told is
  cases answer with
  | ok _ => exact ⟨envelope, type, member⟩
  | error _ => cases taken

theorem Runs.retry_iff (reached : Runs {} log office)
    (here : office.errands[i]? = some ⟨.execute engine request, rest⟩) :
    (∃ envelope ∈ log.sentBy i, envelope.eventType = "publish.retry_requested.v1") ↔
      ∃ row kind message taken, rest = .done (.ok (.executed ⟨row, .failed kind message taken⟩)) ∧
        row.status = .failed ∧ ⟨.records (.updateJob row), .ok true⟩ ∈ log.of i ∧
        (kind = .rateLimited ∨ kind = .transientNetwork) ∧ row.retryCount < row.maxRetries := by
  obtain ⟨stand, same, course⟩ := reached.course here
  rw [OfficeLog.sentBy_eq]
  constructor
  · rintro ⟨envelope, sent, type⟩
    obtain ⟨row, kind, message, taken, retry, _, _, ended, status, wants, is⟩ :=
      course.retry_origin sent type
    exact ⟨row, kind, message, taken, (executed_iff same).2 is, status,
      (OfficeLog.ended_mem_deeds.1 ended).1, Job.wantsRetry_iff.1 wants⟩
  · rintro ⟨row, kind, message, taken, is, status, moved, wants⟩
    have finished : row.isTerminal = true := Job.isTerminal_iff.2 (by simp [status])
    have is : stand = .ended (.ok ⟨row, .failed kind message taken⟩) := (executed_iff same).1 is
    rcases course.failed_ends (OfficeLog.ended_mem_deeds.2 ⟨moved, finished⟩) status with
      underway | ⟨kind', message', taken', is', retries⟩
    · simp [underway] at is
    · rw [is] at is'
      cases is'
      exact retries (Job.wantsRetry_iff.2 wants)

/-- An execution that failed its job ends by saying so. -/
theorem Runs.failed_ends (reached : Runs {} log office)
    (here : office.errands[i]? = some ⟨.execute engine request, rest⟩) {row : Job}
    (status : row.status = .failed)
    (moved : ⟨.records (.updateJob row), .ok true⟩ ∈ log.of i) (isOver : rest.IsOver) :
    ∃ kind message taken, rest = .done (.ok (.executed ⟨row, .failed kind message taken⟩)) := by
  obtain ⟨stand, same, course⟩ := reached.course here
  have finished : row.isTerminal = true := Job.isTerminal_iff.2 (by simp [status])
  rcases course.failed_ends (OfficeLog.ended_mem_deeds.2 ⟨moved, finished⟩) status with
    underway | ⟨kind, message, taken, is, _⟩
  · rw [underway] at same
    exact absurd same (Program.stand_ne_underway isOver)
  · exact ⟨kind, message, taken, (executed_iff same).2 is⟩

/-- The event protocol of an execution. Take any run of an office from its beginning, with any
tasks, any order of calls and any answers and faults, and any execution in it that is given complete
results only. The events that it tried to send are none, its start, or its start and one end, and
after a failure perhaps a request for a retry. Services other than the records were called only
after its start was taken. All its envelopes carry the identifier and the user of one job that has
a row, and if it answered an outcome, it is for this job and exactly one end was told. It asked for
a retry exactly if this execution moved the row to failure, the kind of the failure is a rate limit
or a trouble of the network, and the job had not used up its retries. And once it moved the row to
failure, it could not end without saying so. -/
theorem event_protocol (reached : Runs {} log office)
    (here : office.errands[i]? = some ⟨.execute engine request, rest⟩)
    (complete : ∀ publisher context result,
      ⟨.publish publisher context, .ok result⟩ ∈ log.of i → result.IsComplete) :
    (log.sentBy i).map (·.eventType) ∈ [[], ["publish.started.v1"],
      ["publish.started.v1", "publish.succeeded.v1"], ["publish.started.v1", "publish.failed.v1"],
      ["publish.started.v1", "publish.failed.v1", "publish.retry_requested.v1"]] ∧
    (∀ before call after, log.of i = before ++ call :: after → (∀ c, call.1 ≠ .records c) →
      ∃ envelope, envelope.eventType = "publish.started.v1" ∧
        ⟨.records (.send envelope), .ok ()⟩ ∈ before) ∧
    (log.sentBy i ≠ [] → ∃ row ∈ office.stores.jobs.rows,
      (∀ envelope ∈ log.sentBy i, envelope.IsFor row) ∧
      ∀ execution, rest = .done (.ok (.executed execution)) → execution.job.id = row.id ∧
        (log.sentBy i).countP (·.tellsEnd) = 1) ∧
    ((∃ envelope ∈ log.sentBy i, envelope.eventType = "publish.retry_requested.v1") ↔
      ∃ row kind message taken, rest = .done (.ok (.executed ⟨row, .failed kind message taken⟩)) ∧
        row.status = .failed ∧ ⟨.records (.updateJob row), .ok true⟩ ∈ log.of i ∧
        (kind = .rateLimited ∨ kind = .transientNetwork) ∧ row.retryCount < row.maxRetries) ∧
    (∀ row, row.status = .failed → ⟨.records (.updateJob row), .ok true⟩ ∈ log.of i →
      rest.IsOver → ∃ kind message taken,
        rest = .done (.ok (.executed ⟨row, .failed kind message taken⟩))) := by
  refine ⟨?types, fun _ _ _ => reached.asked_after_start here, ?ends, reached.retry_iff here,
    fun _ => reached.failed_ends here⟩
  all_goals
    obtain ⟨stand, same, course⟩ := reached.course here
    rw [OfficeLog.sentBy_eq]
  case types => exact course.types
  case ends =>
    intro told
    have results : ∀ result, .asked (some result) ∈ log.deeds i → result.IsComplete := by
      intro result asked
      obtain ⟨publisher, context, member⟩ :=
        OfficeLog.mem_results.1 (Deed.mem_results.2 asked)
      exact complete publisher context result member
    obtain ⟨row, member, isFor, ends⟩ := course.isFor_row told results
    exact ⟨row, member, isFor, fun execution is => ends execution ((executed_iff same).1 is)⟩

open Rehearsal in
/-- A delivery is refused for a rate limit, and asks for a retry. -/
theorem event_protocol_rateLimited : ∃ log office rest, Runs {} log office ∧
    office.errands[0]? = some ⟨.execute Cast.engine Cast.request, rest⟩ ∧
    (log.sentBy 0).map (·.eventType) =
      ["publish.started.v1", "publish.failed.v1", "publish.retry_requested.v1"] ∧
    ∃ row kind message taken, rest = .done (.ok (.executed ⟨row, .failed kind message taken⟩)) ∧
      (kind = .rateLimited ∨ kind = .transientNetwork) ∧ row.retryCount < row.maxRetries := by
  have reached := (Cast.twice_isRun [] [.rateLimited "slow down"]).1
  obtain ⟨outcome, here⟩ := Cast.twice_errand [] [.rateLimited "slow down"]
  have results : Deed.results ((Cast.twice [] [.rateLimited "slow down"]).log.deeds 0) =
      [.rateLimited "slow down"] := by
    decide +kernel
  have types : ((Cast.twice [] [.rateLimited "slow down"]).log.sentBy 0).map (·.eventType) =
      ["publish.started.v1", "publish.failed.v1", "publish.retry_requested.v1"] := by
    decide +kernel
  have protocol := event_protocol reached here fun publisher context result member => by
    have is := OfficeLog.mem_results.2 ⟨publisher, context, member⟩
    obtain rfl : result = .rateLimited "slow down" := by simpa [results] using is
    exact .inr ⟨_, _, rfl⟩
  obtain ⟨envelope, sent, type⟩ : ∃ envelope ∈
      (Cast.twice [] [.rateLimited "slow down"]).log.sentBy 0,
      envelope.eventType = "publish.retry_requested.v1" := by
    decide +kernel
  obtain ⟨row, kind, message, taken, is, _, _, wants⟩ := protocol.2.2.2.1.1 ⟨envelope, sent, type⟩
  exact ⟨_, _, _, reached, here, types, row, kind, message, taken, is, wants⟩

end Office

end Syndication
