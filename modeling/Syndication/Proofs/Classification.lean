import Syndication.Proofs.FailedWithPost
import Syndication.Proofs.NextAttempt
import Syndication.Proofs.Tags

namespace Syndication

attribute [ext] FailedEvent

/-- All of a failed event can be read off its envelope, and which job it is for. -/
theorem Announcement.envelope_failed_injective {job other : Job} {event more : FailedEvent}
    (same : envelope job (.failed event) = envelope other (.failed more)) :
    job.id = other.id ∧ event = more := by
  have correlation := congrArg (fun e => e.metadata.correlationId) same
  have payload : event.toJson = more.toJson := congrArg Envelope.payload same
  have failed : event.failedAt = more.failedAt := congrArg Envelope.occurredAt same
  refine ⟨JobId.text_injective (Option.some.inj correlation), ?_⟩
  simp only [FailedEvent.toJson, Json.obj.injEq, List.cons.injEq, Prod.mk.injEq, true_and,
    and_true] at payload
  obtain ⟨eventId, userId, jobId, platform, error, kind, retryable, _⟩ := payload
  have sameKind : event.errorKind = more.errorKind := by
    have tag : FailureKind.ofTag? event.errorKind.tag = some more.errorKind :=
      FailureKind.ofTag?_eq_some_iff.2 (Json.str.inj kind).symm
    simpa using tag
  exact FailedEvent.ext (congrArg EventId.mk (Json.str.inj eventId))
    (UserId.toJson_injective userId) (congrArg JobId.mk (Uuid.toJson_injective jobId))
    (Json.str.inj platform) (Json.str.inj error) sameKind (Json.bool.inj retryable) failed

/-- A refusal whose message begins with the tag of a kind that it is not of. -/
def PublishResult.IsMistagged (result : PublishResult) : Prop :=
  ∃ kind text, FailureKind.splitTagged (result.errorMessage.getD "platform rejected the post") =
    some (kind, text) ∧ kind ≠ result.failureKind.getD .permanentPlatform

/-- The kind and the message that a failed attempt is brought to its end with. -/
def Engine.verdict : Except PublishError PublishResult → FailureKind × String
  | .ok result => (result.failureKind.getD .permanentPlatform,
      result.errorMessage.getD "platform rejected the post")
  | .error error => (error.kind, error.message)

/-- What is stored of a failed attempt has the tag of its kind, unless its publisher mistagged
it. -/
theorem Engine.kind_eq_tag_iff {outcome : Except PublishError PublishResult} {tag : FailureKind}
    {text : String} (split : FailureKind.splitTagged
      ((verdict outcome).1.tagMessage (verdict outcome).2) = some (tag, text)) :
    (verdict outcome).1 = tag ↔ ¬ ∃ result, outcome = .ok result ∧ result.IsMistagged := by
  rw [FailureKind.splitTagged_tagMessage] at split
  cases outcome with
  | error error =>
    have plain : FailureKind.splitTagged error.message = none :=
      FailureKind.splitTagged_of_plain error.message_beginsPlain
    simp only [verdict, plain, Option.none_or, Option.some.injEq, Prod.mk.injEq] at split
    simp [verdict, split.1]
  | ok result =>
    simp only [verdict] at split ⊢
    cases own : FailureKind.splitTagged (result.errorMessage.getD "platform rejected the post") with
    | none =>
      simp only [own, Option.none_or, Option.some.injEq, Prod.mk.injEq] at split
      simp [PublishResult.IsMistagged, own, split.1]
    | some parts =>
      simp only [own, Option.some_or, Option.some.injEq] at split
      simp [PublishResult.IsMistagged, own, split, eq_comm]

namespace Deed

/-- The deed is about the failure of a job: it moves the job there, or it announces it. -/
def IsFailure : Deed → Prop
  | .told envelope _ => envelope.eventType = "publish.failed.v1"
  | .ended job => job.status = .failed
  | .asked _ => False

/-- No deed is about a failure. -/
def Unfailed (deeds : List Deed) : Prop := ∀ deed ∈ deeds, ¬ deed.IsFailure

theorem Unfailed.append {deeds more : List Deed} (first : Unfailed deeds) (second : Unfailed more) :
    Unfailed (deeds ++ more) := List.forall_mem_append.2 ⟨first, second⟩

theorem unfailed_asks {asks : List Deed} (asked : ∀ deed ∈ asks, deed.IsAsked) : Unfailed asks := by
  intro deed member
  obtain ⟨result, rfl⟩ := asked deed member
  exact id

/-- The announcement of another event than a failed one. -/
theorem unfailed_announced {job : Job} {event : Event} {taken : Bool}
    (other : ∀ failure, event ≠ .failed failure) : Unfailed [.announced job event taken] := by
  have apart : event.typeName ≠ "publish.failed.v1" := by
    cases event with
    | failed failure => exact absurd rfl (other failure)
    | _ => simp [Event.typeName]
  intro deed member
  cases List.mem_singleton.1 member
  exact apart

/-- What an execution does about a failure, when its attempt failed with this kind and message.
Either it announces what another one stored, or it stores the message with its tag and announces
that. -/
inductive Classified (kind : FailureKind) (message : String) : List Deed → Prop
  | unfailed {deeds} : Unfailed deeds → Classified kind message deeds
  | mirrored {deeds row failure taken} : Unfailed deeds → (∀ job, .ended job ∉ deeds) →
      FailedEvent.Says failure (Engine.storedKind failure.error) failure.error →
      Classified kind message (deeds ++ [.announced row (.failed failure) taken])
  | stored {deeds row} : Unfailed deeds → row.lastError = some (kind.tagMessage message) →
      Classified kind message (deeds ++ [.ended row])
  | told {deeds row failure taken more} : Unfailed deeds →
      row.lastError = some (kind.tagMessage message) → FailedEvent.jobId failure = row.id →
      failure.Says kind (kind.tagMessage message) → Unfailed more →
      Classified kind message
        (deeds ++ [.ended row] ++ .announced row (.failed failure) taken :: more)

namespace Classified

variable {kind : FailureKind} {message : String} {deeds : List Deed}

theorem of_ended (classified : Classified kind message deeds) {job : Job}
    (ended : .ended job ∈ deeds) (failed : job.status = .failed) :
    job.lastError = some (kind.tagMessage message) := by
  cases classified with
  | unfailed unfailed => exact absurd failed (unfailed _ ended)
  | mirrored _ none _ => exact absurd (by simpa using ended) (none job)
  | stored unfailed error =>
    rcases List.mem_append.1 ended with old | last
    · exact absurd failed (unfailed _ old)
    · cases List.mem_singleton.1 last
      exact error
  | told unfailed error _ _ unfailedToo =>
    rcases List.mem_append.1 ended with before | after
    · rcases List.mem_append.1 before with old | last
      · exact absurd failed (unfailed _ old)
      · cases List.mem_singleton.1 last
        exact error
    · rcases List.mem_cons.1 after with impossible | more
      · cases impossible
      · exact absurd failed (unfailedToo _ more)

/-- A failed event that was announced is the one of a failure that was stored elsewhere, or the one
of the failure that was stored right before. -/
theorem of_told (classified : Classified kind message deeds) {envelope : Envelope} {taken : Bool}
    (told : .told envelope taken ∈ deeds) (type : envelope.eventType = "publish.failed.v1") :
    ∃ row failure, envelope = Announcement.envelope row (.failed failure) ∧
      ((∀ job, .ended job ∉ deeds) ∧
        failure.Says (Engine.storedKind failure.error) failure.error ∨
      .ended row ∈ deeds ∧ failure.jobId = row.id ∧
        failure.Says kind (kind.tagMessage message)) := by
  cases classified with
  | unfailed unfailed => exact absurd type (unfailed _ told)
  | mirrored unfailed none content =>
    rcases List.mem_append.1 told with old | last
    · exact absurd type (unfailed _ old)
    · cases List.mem_singleton.1 last
      exact ⟨_, _, rfl, .inl ⟨by simpa using none, content⟩⟩
  | stored unfailed _ =>
    rcases List.mem_append.1 told with old | last
    · exact absurd type (unfailed _ old)
    · cases List.mem_singleton.1 last
  | told unfailed _ forRow content unfailedToo =>
    rcases List.mem_append.1 told with before | after
    · rcases List.mem_append.1 before with old | last
      · exact absurd type (unfailed _ old)
      · cases List.mem_singleton.1 last
    · rcases List.mem_cons.1 after with here | more
      · cases here
        exact ⟨_, _, rfl, .inr ⟨by simp, forRow, content⟩⟩
      · exact absurd type (unfailedToo _ more)

end Classified

/-- The deeds of an execution, as far as they are about a failure, are those of one attempt. -/
def Reported (deeds : List Deed) : Prop :=
  ∃ outcome : Except PublishError PublishResult, results deeds = outcome.toOption.toList ∧
    Classified (Engine.verdict outcome).1 (Engine.verdict outcome).2 deeds

theorem Reported.of_unfailed {deeds : List Deed} (unfailed : Unfailed deeds)
    (none : results deeds = []) : Reported deeds :=
  ⟨.error (.unknownPlatform ""), none, .unfailed unfailed⟩

end Deed

theorem Closing.no_results {job : Job} {complete : Prop} {closing : List Deed}
    {stand : Stand (Except PublishError Execution)} (closes : Closing job complete closing stand) :
    Deed.results closing = [] := by
  cases closes <;> rfl

def Stand.value? {ε α : Type} : Stand (Except ε α) → Option α
  | .ended (.ok value) => some value
  | _ => none

namespace Engine

open Syndication.Action Program

section Results

variable {α β σ : Type} {scene : Scene Services σ} {past : List Deed} {s : σ}

theorem results_of_preparing {p : Program Services α} {post : α → Prop}
    (preparing : p.Yields ServiceCall.IsPreparing post) :
    p.Does scene Deed.of? (fun now _ _ => Deed.results now = Deed.results past) past s := by
  induction p generalizing past s with
  | done value => rfl
  | overflow => rfl
  | call c next ih =>
    obtain ⟨here, goesOn⟩ := preparing () trivial trivial
    refine ⟨rfl, fun t a u _ _ => (ih a (goesOn a () trivial)).weaken fun now _ _ same => ?_⟩
    have none : Deed.results (Deed.of? ⟨c, a⟩).toList = [] := by
      cases c with
      | records c =>
        cases c with
        | now => rfl
        | _ => cases here
      | publish platform context => cases here
      | _ => rfl
    rw [same, Deed.results_append, none, List.append_nil]

/-- The results that publishers came to are the value of the action, if it has come to one. -/
def Results {ε : Type} (past now : List Deed) (stand : Stand (Except ε PublishResult)) (_ : σ) :
    Prop :=
  Deed.results now = Deed.results past ++ stand.value?.toList

theorem results_bind {x : Action Services β} {f : β → Action Services PublishResult}
    (preparing : x.CallsOnly ServiceCall.IsPreparing)
    (next : ∀ value now t, (f value).Does scene Deed.of? (Results now) now t) :
    (x >>= f).Does scene Deed.of? (Results past) past s := by
  have first : x.Does scene Deed.of? (fun now _ _ => Deed.results now = Deed.results past) past s :=
    ⟨results_of_preparing (preparing.meets.weaken fun _ _ _ => trivial)⟩
  refine first.bind (fun now stand last t broken same => ?_) fun now value t same => ?_
  · have none : last.value? = none := by cases broken <;> rfl
    simp [Results, same, none]
  · refine (next value now t).weaken fun later stand u is => ?_
    rwa [Results, ← same]

/-- An attempt publishes once at most, and then it has the result of that. -/
theorem attempt_results (engine : Engine) (job : Job) (request : Request) :
    (engine.attempt job request).Does scene Deed.of? (Results past) past s := by
  have nothing (now : List Deed) (t : σ) (error : PublishError) :
      Results now now (.ended (.error error)) t := (List.append_nil _).symm
  unfold attempt
  refine results_bind (.persisted (Yields.ask trivial)) fun found now t => ?_
  cases found with
  | none => exact .throw (nothing _ _ _)
  | some account =>
    refine results_bind .ofExcept fun _ now t => ?_
    refine results_bind (engine.renewal.validToken_preparing account) fun token now t => ?_
    refine results_bind .ofExcept fun publisher now t => ?_
    have published : (Services.publish publisher ⟨request, account, token⟩).Does scene Deed.of?
        (Results now) now t := by
      refine .ask (I := Services) (.publish publisher _) (List.append_nil _).symm ?_
      intro t answer u _ _
      cases answer <;> simp [Results, Deed.of?, Deed.results, Deed.result?, Stand.value?]
    refine .always_bind published (fun _ _ same => same) (fun _ _ same => same)
      fun later answer u same => ?_
    cases answer with
    | ok result => exact .pure same
    | error error => exact .throw same

end Results

section Classified

open Deed

variable {anyRead : Prop} {s : Stores} {past : List Deed} {job row : Job} {kind : FailureKind}
  {message : String}

theorem reportStored_classified (unfailed : Unfailed past) (none : ∀ job, .ended job ∉ past) :
    (reportStored row).Does (Discipline.publishing anyRead).scene Deed.of?
      (fun now _ _ => Classified kind message now) past s := by
  unfold reportStored
  split
  · have read : (Ledger.postOf row).Does (Discipline.bookkeeping anyRead).scene Deed.ofRecord?
        (fun now _ _ => now = past) past s := Ledger.unseen_of_silent (Ledger.postOf_silent row)
    have readAll : (Ledger.postOf row).toServices.Does (Discipline.publishing anyRead).scene
        Deed.of? (fun now _ _ => now = past) past s := read.toServices
    refine readAll.bind (fun now _ _ _ _ same => ?_) fun now found t same => ?_
    · exact same ▸ .unfailed unfailed
    · obtain rfl := same
      cases found with
      | none => exact .pure (.unfailed unfailed)
      | some post =>
        refine closes_of_tryAnnounce (Announcement.succeeded_tells row post)
          (fun _ => .unfailed unfailed) fun event taken u _ isSuccess => ?_
        obtain ⟨success, rfl⟩ := isSuccess
        exact .pure (.unfailed (unfailed.append (unfailed_announced (by simp))))
  · refine closes_of_tryAnnounce (Announcement.failed_tells row _ _) (fun _ => .unfailed unfailed)
      fun event taken u _ isFailure => ?_
    obtain ⟨failure, rfl, content⟩ := isFailure
    refine .pure (.mirrored unfailed none ?_)
    rw [content.error]
    exact content
  · exact .pure (.unfailed unfailed)

theorem completeFailure_classified (sound : s.Sound) (holds : s.Holds job)
    (unfailed : Unfailed past) (none : ∀ job, .ended job ∉ past) :
    (completeFailure job kind message).Does (Discipline.publishing anyRead).scene Deed.of?
      (fun now _ _ => Classified kind message now) past s := by
  unfold completeFailure
  refine does_of_move sound (Ledger.fail_does job _) (Ledger.fail_ensures sound holds _)
    (fun _ _ _ => .unfailed unfailed) fun answer t _ _ contract => ?_
  obtain ⟨row, isNew⟩ := answer
  cases isNew with
  | false => simpa using reportStored_classified unfailed none
  | true =>
    have error : row.lastError = some (kind.tagMessage message) := (contract.2.2 rfl).2
    refine closes_of_tryAnnounce (Announcement.failed_tells row kind _)
      (fun _ => .stored unfailed error) fun event taken u forRow isFailure => ?_
    obtain ⟨failure, rfl, content⟩ := isFailure
    have told {more : List Deed} (unfailedToo : Unfailed more) : Classified kind message
        (past ++ [Deed.ended row] ++ Deed.announced row (.failed failure) taken :: more) :=
      .told unfailed error forRow content unfailedToo
    have here : Classified kind message
        (past ++ [Deed.ended row] ++ [Deed.announced row (.failed failure) taken]) :=
      told (by simp [Unfailed])
    split
    · refine closes_of_tryAnnounce (Announcement.retryRequested_tells row _) (fun _ => here)
        fun event asked v _ isRetry => ?_
      obtain ⟨retry, rfl, _⟩ := isRetry
      refine .pure ?_
      rw [List.append_assoc]
      exact told (unfailed_announced (by simp))
    · exact .pure here

theorem completeSuccess_classified (sound : s.Sound) (holds : s.Holds job) (result : PublishResult)
    (unfailed : Unfailed past) (none : ∀ job, .ended job ∉ past) :
    (completeSuccess job result).Does (Discipline.publishing anyRead).scene Deed.of?
      (fun now _ _ => Classified kind message now) past s := by
  unfold completeSuccess
  refine does_of_move sound (Ledger.succeed_does job result)
    (Ledger.succeed_ensures sound holds result) (fun _ _ _ => .unfailed unfailed)
    fun answer t _ _ contract => ?_
  obtain ⟨row, post⟩ := answer
  cases post with
  | none => simpa using reportStored_classified unfailed none
  | some post =>
    have success : row.status = .success := (contract.2.2 post rfl).1
    have ended : Unfailed [.ended row] := by
      simp [Unfailed, IsFailure, success]
    refine closes_of_tryAnnounce (Announcement.succeeded_tells row post)
      (fun _ => .unfailed (unfailed.append ended)) fun event taken u _ isSuccess => ?_
    obtain ⟨announced, rfl⟩ := isSuccess
    exact .pure (.unfailed ((unfailed.append ended).append (unfailed_announced (by simp))))

theorem complete_classified (sound : s.Sound) (holds : s.Holds job)
    (outcome : Except PublishError PublishResult) (unfailed : Unfailed past)
    (none : ∀ job, .ended job ∉ past) :
    (complete job outcome).Does (Discipline.publishing anyRead).scene Deed.of?
      (fun now _ _ => Classified (verdict outcome).1 (verdict outcome).2 now) past s := by
  cases outcome with
  | error error => exact completeFailure_classified sound holds unfailed none
  | ok result =>
    simp only [complete]
    split
    · exact completeSuccess_classified sound holds result unfailed none
    · exact completeFailure_classified sound holds unfailed none

/-- Once the start was taken, whatever is told of a failure is of the attempt that follows. -/
theorem goOn_reported (sound : s.Sound) (engine : Engine) (request : Request)
    (holds : s.Holds job) {start : StartedEvent} :
    (Action.always (engine.attempt job request).run >>= complete job).Does
      (Discipline.publishing anyRead).scene Deed.of? (fun deeds _ _ => Reported deeds)
      [.announced job (.started start) true] s := by
  have meets := Yields.meets (engine.attempt_yields job request).meets (.publishing anyRead)
    (fun _ outside _ => outside.permitted _) s
  have unfailed {asks : List Deed} (asked : ∀ deed ∈ asks, deed.IsAsked) :
      Unfailed ([Deed.announced job (.started start) true] ++ asks) :=
    (unfailed_announced (by simp)).append (unfailed_asks asked)
  refine .always_bind (((engine.attempt_does job request).and
    (engine.attempt_results job request)).does.and_meets meets sound)
    (fun now t is => ?_) (fun now t is => ?_) fun now outcome t is => ?_
  · obtain ⟨⟨⟨asks, rfl, asked, _⟩, results⟩, _⟩ := is
    exact .of_unfailed (unfailed asked) results
  · obtain ⟨⟨⟨asks, rfl, asked, _⟩, results⟩, _⟩ := is
    exact .of_unfailed (unfailed asked) results
  · obtain ⟨⟨⟨asks, rfl, asked, _⟩, results⟩, _, soundT, later⟩ := is
    have holds : t.Holds job := holds.later later
    have none : ∀ other, .ended other ∉ [Deed.announced job (.started start) true] ++ asks := by
      intro other member
      rcases List.mem_cons.1 member with impossible | inAsks
      · cases impossible
      · obtain ⟨_, impossible⟩ := asked _ inAsks
        cases impossible
    refine ((complete_classified soundT holds outcome (unfailed asked) none).and
      (complete_closes soundT holds outcome)).weaken fun now stand u is => ?_
    obtain ⟨classified, closing, rfl, closes⟩ := is
    refine ⟨outcome, ?_, classified⟩
    rw [results_append, closes.no_results, List.append_nil, results]
    cases outcome <;> rfl

theorem execute_reported (sound : s.Sound) (engine : Engine) (request : Request) :
    (engine.execute request).Does (Discipline.publishing anyRead).scene Deed.of?
      (fun deeds _ _ => Reported deeds) [] s := by
  have nothing : Reported [] := .of_unfailed (by simp [Unfailed]) rfl
  unfold execute
  refine (unseen_ensures sound (Ledger.openJob_silent _ request)
    (Ledger.openJob_ensures sound _ request)).bind (fun _ _ _ _ _ is => is.1 ▸ nothing)
    fun now job t is => ?_
  obtain ⟨rfl, opened, soundT, _⟩ := is
  have holds : t.Holds job := Stores.holds_of_find? (opened job rfl).1
  split
  · exact .pure nothing
  refine (unseen_ensures soundT (Ledger.start_silent job)
    (Ledger.start_ensures soundT holds)).bind (fun _ _ _ _ _ is => is.1 ▸ nothing)
    fun now job u is => ?_
  obtain ⟨rfl, started, soundU, _⟩ := is
  have holds : u.Holds job := (started job rfl).2
  split
  · exact .pure nothing
  refine (does_ensures soundU (Announcement.started_tells job)
    (Announcement.started_ensures soundU job)).bind (fun now stand last v broken is => ?_)
    fun now event v is => ?_
  · obtain ⟨tells, _⟩ := is
    cases broken with
    | underway =>
      obtain rfl : now = [] := tells
      exact nothing
    | overflown => cases tells
    | failed error =>
      obtain ⟨event, _, ⟨start, rfl⟩, rfl⟩ := tells
      exact .of_unfailed (unfailed_announced (by simp)) rfl
  · obtain ⟨⟨event, _, ⟨start, rfl⟩, rfl⟩, _, soundV, later⟩ := is
    exact goOn_reported soundV engine request (holds.later later)

end Classified

end Engine

theorem OfficeLog.sent_of_sentBy {log : OfficeLog} {i : Nat} {envelope : Envelope}
    (sent : envelope ∈ log.sentBy i) : envelope ∈ log.sent := by
  obtain ⟨exchange, member, is⟩ := List.mem_filterMap.1 sent
  refine List.mem_filterMap.2 ⟨(i, exchange), mem_of.1 member, ?_⟩
  split at is
  · exact is
  · cases is

/-- The execution with this number got a refusal from its publisher that was mistagged. -/
def OfficeLog.Mistags (log : OfficeLog) (i : Nat) : Prop :=
  ∃ publisher context result, ⟨.publish publisher context, .ok result⟩ ∈ log.of i ∧
    result.IsMistagged

namespace Office

variable {log : OfficeLog} {office : Office}

theorem Runs.reported (reached : Runs {} log office) {i : Nat} {engine : Engine}
    {request : Request} {rest : Program Services (Except PublishError Reply)}
    (here : office.errands[i]? = some ⟨.execute engine request, rest⟩) :
    Deed.Reported (log.deeds i) := by
  obtain ⟨s, t, sound, goes, _⟩ := reached.goes here
  have reports : (Task.execute engine request).action.Does
      (Task.execute engine request).discipline.scene Deed.of?
      (fun deeds _ _ => Deed.Reported deeds) [] s :=
    (Engine.execute_reported sound engine request).bind (fun _ _ _ _ _ is => is)
      fun _ _ _ is => .pure is
  exact reports.does.goes goes

/-- Where the failed events of an execution come from: the execution was overtaken and mirrors what
is stored, or it stored the failure of its own attempt. -/
theorem Runs.failed_event_origin (reached : Runs {} log office) {i : Nat} {job : Job}
    {failure : FailedEvent} (sent : Announcement.envelope job (.failed failure) ∈ log.sentBy i) :
    ((∀ row, .ended row ∉ log.deeds i) ∧
      failure.Says (Engine.storedKind failure.error) failure.error) ∨
    ∃ row, ∃ outcome : Except PublishError PublishResult,
      .ended row ∈ log.deeds i ∧ failure.jobId = row.id ∧
      Deed.results (log.deeds i) = outcome.toOption.toList ∧
      failure.Says (Engine.verdict outcome).1
        ((Engine.verdict outcome).1.tagMessage (Engine.verdict outcome).2) := by
  obtain ⟨engine, request, rest, here⟩ := reached.sent_by_execution sent
  obtain ⟨outcome, results, classified⟩ := reached.reported here
  rw [OfficeLog.sentBy_eq] at sent
  obtain ⟨deed, member, is⟩ := List.mem_filterMap.1 sent
  cases deed with
  | told envelope taken =>
    cases is
    obtain ⟨row, event, same, origin⟩ := classified.of_told member rfl
    obtain ⟨_, rfl⟩ := Announcement.envelope_failed_injective same
    exact origin.imp_right fun ⟨ended, forRow, content⟩ =>
      ⟨row, outcome, ended, forRow, results, content⟩
  | _ => cases is

/-- What a failed event tells is stored. -/
theorem Runs.failed_event_stored (reached : Runs {} log office) {job : Job} {failure : FailedEvent}
    (sent : Announcement.envelope job (.failed failure) ∈ log.sent) :
    office.stores.Failed failure.jobId failure.error := by
  obtain ⟨row, event, same, _, agrees⟩ := reached.sent_agrees sent
  have type : event.typeName = "publish.failed.v1" := (congrArg Envelope.eventType same).symm
  obtain ⟨other, rfl⟩ := Event.eq_failed type
  obtain ⟨_, rfl⟩ := Announcement.envelope_failed_injective same
  exact agrees

theorem mistags_iff {i : Nat} {outcome : Except PublishError PublishResult}
    (results : Deed.results (log.deeds i) = outcome.toOption.toList) :
    log.Mistags i ↔ ∃ result, outcome = .ok result ∧ result.IsMistagged := by
  have came (result : PublishResult) : outcome = .ok result ↔
      ∃ publisher context, ⟨.publish publisher context, .ok result⟩ ∈ log.of i := by
    rw [← OfficeLog.mem_results, results]
    cases outcome <;> simp [Except.toOption, eq_comm]
  constructor
  · rintro ⟨publisher, context, result, member, mistagged⟩
    exact ⟨result, (came result).2 ⟨publisher, context, member⟩, mistagged⟩
  · rintro ⟨result, is, mistagged⟩
    obtain ⟨publisher, context, member⟩ := (came result).1 is
    exact ⟨publisher, context, result, member, mistagged⟩

/-- What failed events say of the kind of a failure. Take any run of an office from its beginning,
with any tasks, any order of calls and any answers and faults. Every failed event is about a job
that an errand ended in failure. When this errand was an execution, the stored message begins with a
tag, every failed event about the job tells this message, and says that it is retryable as its kind
is. Its kind is that of the tag, except when it comes from the execution that ended the job and the
publisher of this execution gave a message that began with the tag of a kind other than the one it
gave beside it. -/
theorem failed_event_kind_iff (reached : Runs {} log office) :
    (∀ i, ∀ envelope ∈ log.sentBy i, envelope.eventType = "publish.failed.v1" →
      ∃ job failure r, envelope = Announcement.envelope job (.failed failure) ∧
        log.Fails r failure.jobId) ∧
    ∀ r engine request rest, office.errands[r]? = some ⟨.execute engine request, rest⟩ →
      ∀ id, log.Fails r id → ∃ row message tag text,
        office.stores.jobs.find? id = some row ∧ row.lastError = some message ∧
        FailureKind.splitTagged message = some (tag, text) ∧
        ∀ i job failure, Announcement.envelope job (.failed failure) ∈ log.sentBy i →
          failure.jobId = id → failure.error = message ∧
            failure.retryable = failure.errorKind.isRetryable ∧
            (failure.errorKind = tag ↔ ¬ (i = r ∧ log.Mistags r)) := by
  refine ⟨fun i envelope sent type => ?_, ?_⟩
  · obtain ⟨job, event, rfl, _, agrees⟩ := reached.sent_agrees (OfficeLog.sent_of_sentBy sent)
    obtain ⟨failure, rfl⟩ := Event.eq_failed type
    obtain ⟨row, found, failed, _⟩ := agrees
    obtain ⟨r, fails⟩ := reached.failed_origin (JobStore.mem_of_find? found) failed
    exact ⟨job, failure, r, rfl, JobStore.id_of_find? found ▸ fails⟩
  · rintro r engine request rest here id ⟨row, rfl, failed, moved⟩
    have ended : .ended row ∈ log.deeds r := OfficeLog.ended_mem_deeds.2
      ⟨OfficeLog.mem_of.2 moved, Job.isTerminal_iff.2 (by simp [failed])⟩
    have stored := (reached.ended_stored ended).1
    obtain ⟨outcome, _, classified⟩ := reached.reported here
    have error := classified.of_ended ended failed
    obtain ⟨tag, text, split⟩ := FailureKind.tagMessage_tagged (Engine.verdict outcome).1
      (Engine.verdict outcome).2
    refine ⟨row, _, tag, text, stored, error, split, fun i job failure sent forRow => ?_⟩
    have told : failure.error =
        (Engine.verdict outcome).1.tagMessage (Engine.verdict outcome).2 := by
      obtain ⟨same, found, _, is⟩ := reached.failed_event_stored (OfficeLog.sent_of_sentBy sent)
      rw [forRow, stored] at found
      cases found
      simpa [error] using is.symm
    rcases reached.failed_event_origin sent with ⟨none, content⟩ | origin
    · -- an execution that was overtaken reads the tag
      have tagged : failure.errorKind = tag := by
        rw [content.errorKind, told, Engine.storedKind, split]
      have apart : i ≠ r := by
        rintro rfl
        exact none row ended
      exact ⟨told, content.errorKind ▸ content.retryable, by simp [tagged, apart]⟩
    · obtain ⟨other, own, endedToo, forOther, results, content⟩ := origin
      obtain rfl : i = r := reached.ended_once endedToo ended (forRow.symm.trans forOther)
      refine ⟨told, content.errorKind ▸ content.retryable, ?_⟩
      rw [← told, content.error] at split
      rw [content.errorKind, Engine.kind_eq_tag_iff split, mistags_iff results]
      simp

open Rehearsal in
/-- A publisher refuses for a rate limit, with a message that begins with the tag of another kind.
The event of the failure has the one kind, and tells a message with the tag of the other one. -/
theorem event_of_other_kind : ∃ log office, Runs {} log office ∧
    office.errands.map (·.task) = [.execute Cast.engine Cast.request] ∧
    (∃ publisher context, ⟨.publish publisher context,
      .ok (.failed .rateLimited "[AUTH] slow down")⟩ ∈ log.of 0) ∧
    ∃ envelope ∈ log.sentBy 0, envelope.eventType = "publish.failed.v1" ∧
      ∃ failure, FailedEvent.ofJson? envelope.payload = some failure ∧
        failure.errorKind = .rateLimited ∧
        FailureKind.splitTagged failure.error = some (.auth, "slow down") := by
  have run := (Cast.once_isRun Cast.request [.failed .rateLimited "[AUTH] slow down"]).1
  have answered : .failed .rateLimited "[AUTH] slow down" ∈ Deed.results
      ((Cast.once Cast.request [.failed .rateLimited "[AUTH] slow down"]).log.deeds 0) := by
    decide +kernel
  have sent : ((Cast.once Cast.request [.failed .rateLimited "[AUTH] slow down"]).log.sentBy 0).any
      (fun envelope => envelope.eventType == "publish.failed.v1" &&
        (FailedEvent.ofJson? envelope.payload).any fun failure =>
          failure.errorKind == .rateLimited &&
            FailureKind.splitTagged failure.error == some (.auth, "slow down")) = true := by
    decide +kernel
  refine ⟨_, _, run, rfl, OfficeLog.mem_results.1 answered, ?_⟩
  obtain ⟨envelope, member, is⟩ := List.any_eq_true.1 sent
  simp only [Bool.and_eq_true, beq_iff_eq, Option.any_eq_true] at is
  obtain ⟨type, failure, read, kind, split⟩ := is
  exact ⟨envelope, member, type, failure, read, kind, split⟩

open Rehearsal in
/-- A refusal without a tag of its own is stored and announced under its kind. -/
theorem failed_event_kind_plain : ∃ log office, Runs {} log office ∧ ∃ job failure text,
    Announcement.envelope job (.failed failure) ∈ log.sentBy 0 ∧
      FailureKind.splitTagged failure.error = some (failure.errorKind, text) := by
  have run := (Cast.once_isRun Cast.request [.rateLimited "slow down"]).1
  obtain ⟨outcome, errands⟩ := Cast.once_errands Cast.request [.rateLimited "slow down"]
  have results : Deed.results ((Cast.once Cast.request [.rateLimited "slow down"]).log.deeds 0) =
      [.rateLimited "slow down"] := by
    decide +kernel
  have untagged : ¬ (Cast.once Cast.request [.rateLimited "slow down"]).log.Mistags 0 := by
    rintro ⟨publisher, context, result, member, kind, text, split, _⟩
    have is := OfficeLog.mem_results.2 ⟨publisher, context, member⟩
    obtain rfl : result = .rateLimited "slow down" := by simpa [results] using is
    have plain : FailureKind.splitTagged "slow down" = none := by decide +kernel
    cases plain.symm.trans split
  obtain ⟨envelope, sent, type⟩ : ∃ envelope ∈
      (Cast.once Cast.request [.rateLimited "slow down"]).log.sentBy 0,
      envelope.eventType = "publish.failed.v1" := by
    decide +kernel
  obtain ⟨events, kinds⟩ := failed_event_kind_iff run
  obtain ⟨job, failure, r, rfl, fails⟩ := events 0 envelope sent type
  have only : r = 0 := by
    obtain ⟨_, _, _, moved⟩ := fails
    have bound := run.numbers_lt moved
    rw [errands] at bound
    simpa using bound
  subst only
  obtain ⟨_, message, tag, text, _, _, split, told⟩ := kinds 0 _ _ _ (by rw [errands]; rfl) _ fails
  obtain ⟨rfl, _, kind⟩ := told 0 job failure sent rfl
  obtain rfl := kind.2 (by simp [untagged])
  exact ⟨_, _, run, job, failure, text, sent, split⟩

end Office

end Syndication
