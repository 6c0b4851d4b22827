import Syndication.Execution
import Syndication.Proofs.Ledger

namespace Syndication

/-- What an execution answers about the end of its job is what the stores say. -/
def Execution.Agrees (s : Stores) (execution : Execution) : Prop :=
  match execution.outcome with
  | .published post => s.Published execution.job.id post
  | .failed _ message _ => s.Failed execution.job.id message
  | .alreadyCompleted => True

theorem Execution.Agrees.later {s t : Stores} {execution : Execution} (agrees : execution.Agrees s)
    (later : s.Later t) : execution.Agrees t := by
  obtain ⟨job, outcome⟩ := execution
  cases outcome with
  | published post => exact Stores.Published.later agrees later
  | failed kind message retryRequested => exact Stores.Failed.later agrees later
  | alreadyCompleted => trivial

/-- Calls that neither read nor write the stores, and send nothing. -/
def ServiceCall.IsOutside : ServiceCall → Prop
  | .records .now => True
  | .records _ => False
  | _ => True

/-- Calls outside that publish nothing. -/
def ServiceCall.IsPreparing : ServiceCall → Prop
  | .publish .. => False
  | c => c.IsOutside

theorem ServiceCall.IsPreparing.outside {c : ServiceCall} (preparing : c.IsPreparing) :
    c.IsOutside := by
  cases c with
  | publish platform context => cases preparing
  | _ => exact preparing

theorem ServiceCall.IsOutside.permitted {anyRead : Prop} {c : ServiceCall} (outside : c.IsOutside)
    (s : Stores) : (Discipline.publishing anyRead).permits s c := by
  cases c with
  | records c => cases c <;> trivial
  | _ => trivial

namespace RenewalPolicy

open Syndication.Action Program

variable (policy : RenewalPolicy)

theorem askEndpoint_preparing (id : AccountId) (platform : Platform) (token : Secret) :
    (policy.askEndpoint id platform token).CallsOnly ServiceCall.IsPreparing := by
  unfold askEndpoint
  refine .bind (.always (Yields.ask trivial)) fun reply => ?_
  match reply with
  | .answered (.ok _) => exact .pure
  | .answered (.error _) => exact .throw
  | .timedOut => exact .throw

theorem renewStored_preparing (id : AccountId) (account : Account) (now : Timestamp) :
    (policy.renewStored id account now).CallsOnly ServiceCall.IsPreparing := by
  unfold renewStored
  split
  · exact .throw
  · refine .bind (policy.askEndpoint_preparing _ _ _) fun grant => ?_
    refine .bind (.always Yields.ofCalendar) fun renewed => ?_
    exact .bind (.persisted (Yields.ask trivial)) fun _ => .pure

theorem validTokenInside_preparing (id : AccountId) :
    (policy.validTokenInside id).CallsOnly ServiceCall.IsPreparing := by
  unfold validTokenInside
  refine .bind (.persisted (Yields.ask trivial)) fun found => ?_
  cases found with
  | none => exact .throw
  | some account =>
    refine .bind (.always (Yields.ask trivial)) fun now => ?_
    refine .bind (.always Yields.ofCalendar) fun expires => ?_
    cases expires with
    | true => exact policy.renewStored_preparing id account now
    | false => exact .pure

theorem insideLock_preparing {α : Type} (id : AccountId) {work : Action Services α}
    (preparing : work.CallsOnly ServiceCall.IsPreparing) :
    (insideLock id work).CallsOnly ServiceCall.IsPreparing := by
  constructor
  simp only [insideLock, ExceptT.run_mk, bind_eq, pure_eq]
  refine Meets.bind (Yields.ask trivial) trivial fun lease _ _ _ _ => ?_
  refine Meets.bind (Yields.ask trivial) trivial fun _ _ _ _ _ => ?_
  refine Meets.bind preparing.meets trivial fun outcome _ _ _ _ => ?_
  refine Meets.bind (Yields.ask trivial) trivial fun _ _ _ _ _ => ?_
  refine Meets.bind (Yields.ask trivial) trivial fun _ _ _ _ _ => ?_
  exact Meets.bind (Yields.ask trivial) trivial fun _ _ _ _ _ _ _ => trivial

theorem validToken_preparing (account : Account) :
    (policy.validToken account).CallsOnly ServiceCall.IsPreparing := by
  unfold validToken
  refine .bind (.always (Yields.ask trivial)) fun now => ?_
  refine .bind (.always Yields.ofCalendar) fun expires => ?_
  cases expires with
  | true => exact insideLock_preparing _ (policy.validTokenInside_preparing _)
  | false => exact .pure

theorem validToken_outside (account : Account) :
    (policy.validToken account).CallsOnly ServiceCall.IsOutside :=
  (policy.validToken_preparing account).mono fun _ => (·.outside)

end RenewalPolicy

namespace Engine

open Syndication.Action Program

variable (engine : Engine)

/-- An attempt has a result only if there is a publisher for the job's platform. -/
theorem attempt_yields (job : Job) (request : Request) :
    (engine.attempt job request).Ensures (.free ServiceCall.IsOutside)
      (fun _ _ => ∃ publisher, engine.registry.resolve job.platform = .ok publisher) () := by
  unfold attempt
  refine Ensures.bind (CallsOnly.persisted (Yields.ask trivial)) trivial fun found _ _ _ _ => ?_
  cases found with
  | none => exact .throw
  | some account =>
    refine Ensures.bind CallsOnly.ofExcept trivial fun _ _ _ _ _ => ?_
    refine Ensures.bind (engine.renewal.validToken_outside account) trivial
      fun token _ _ _ _ => ?_
    have resolved : (Action.ofExcept (I := Services) (engine.registry.resolve job.platform)).Ensures
        (.free ServiceCall.IsOutside)
        (fun publisher _ => engine.registry.resolve job.platform = .ok publisher) () :=
      .ofExcept fun _ is => is
    refine resolved.bind trivial fun publisher _ _ _ resolved => ?_
    refine Ensures.bind (CallsOnly.always (Yields.ask trivial)) trivial fun answer _ _ _ _ => ?_
    cases answer with
    | ok result => exact .pure ⟨publisher, resolved⟩
    | error error => exact .throw

theorem attempt_outside (job : Job) (request : Request) :
    (engine.attempt job request).CallsOnly ServiceCall.IsOutside :=
  (engine.attempt_yields job request).weaken fun _ _ _ => trivial

end Engine

namespace Announcement

variable {anyRead : Prop} {s : Stores}

theorem timeOf_meets (known : Option Timestamp) :
    (timeOf known).Meets (.bookkeeping anyRead) (fun _ _ => True) s := by
  cases known with
  | none => exact Records.now_meets
  | some time => trivial

theorem started_ensures (sound : s.Sound) (job : Job) :
    (started job).Ensures (.bookkeeping anyRead) (fun _ _ => True) s := by
  unfold started
  refine (Action.Ensures.always Records.freshId_meets).bind sound fun id t soundT _ _ => ?_
  refine (Action.Ensures.always (timeOf_meets _)).bind soundT fun time u soundU _ _ => ?_
  refine (Records.send_ensures rfl ?_).bind soundU fun _ _ _ _ _ => ?_
  · trivial
  · exact .pure trivial

theorem succeeded_ensures (sound : s.Sound) {job : Job} {post : Post}
    (published : s.Published job.id post) :
    (succeeded job post).Ensures (.bookkeeping anyRead) (fun _ _ => True) s := by
  unfold succeeded
  refine (Action.Ensures.always Records.freshId_meets).bind sound fun id t soundT later _ => ?_
  refine (Records.send_ensures rfl ?_).bind soundT fun _ _ _ _ _ => ?_
  · exact ⟨post, published.later later, rfl, rfl⟩
  · exact .pure trivial

theorem failed_ensures (sound : s.Sound) {job : Job} {message : String}
    (ended : s.Failed job.id message) (kind : FailureKind) :
    (failed job kind message).Ensures (.bookkeeping anyRead) (fun _ _ => True) s := by
  unfold failed
  refine (Action.Ensures.always Records.freshId_meets).bind sound fun id t soundT later _ => ?_
  refine (Action.Ensures.always (timeOf_meets _)).bind soundT fun time u soundU laterU _ => ?_
  refine (Records.send_ensures rfl ?_).bind soundU fun _ _ _ _ _ => ?_
  · exact (ended.later later).later laterU
  · exact .pure trivial

theorem retryRequested_ensures (sound : s.Sound) (job : Job) (reason : String) :
    (retryRequested job reason).Ensures (.bookkeeping anyRead) (fun _ _ => True) s := by
  unfold retryRequested
  refine (Action.Ensures.always Records.freshId_meets).bind sound fun id t soundT _ _ => ?_
  refine (Action.Ensures.always Records.now_meets).bind soundT fun time u soundU _ _ => ?_
  refine (Records.send_ensures rfl ?_).bind soundU fun _ _ _ _ _ => ?_
  · trivial
  · exact .pure trivial

end Announcement

namespace Engine

open Syndication.Action Program

variable {anyRead : Prop} {s : Stores}

theorem tryAnnounce_ensures {α : Type} {announcement : Action Records α}
    (ensures : announcement.Ensures (.bookkeeping anyRead) (fun _ _ => True) s) :
    (tryAnnounce announcement).Ensures (.publishing anyRead) (fun _ _ => True) s :=
  .always (.map (ensures.toServices.meets.weaken fun _ _ _ => trivial))

def Reports (job : Job) (execution : Execution) (s : Stores) : Prop :=
  execution.job.id = job.id ∧ s.Holds execution.job ∧ execution.Agrees s

theorem reportStored_ensures (sound : s.Sound) {job : Job} (holds : s.Holds job) :
    (reportStored job).Ensures (.publishing anyRead) (Reports job) s := by
  unfold reportStored
  split
  · rename_i success
    have found := holds.2 (Job.isTerminal_iff.2 (by simp [success]))
    obtain ⟨post, only⟩ := sound.posted job (JobStore.mem_of_find? found) success
    refine (Ledger.postOf_ensures only).toServices.bind sound fun read t soundT later here => ?_
    subst here
    have published : t.Published job.id post :=
      Stores.Published.later ⟨job, found, success, only⟩ later
    refine (tryAnnounce_ensures (Announcement.succeeded_ensures soundT published)).bind soundT
      fun _ u _ laterU _ => ?_
    exact .pure ⟨rfl, (holds.later later).later laterU, published.later laterU⟩
  · rename_i failure
    have found := holds.2 (Job.isTerminal_iff.2 (by simp [failure]))
    obtain ⟨message, error⟩ := Option.isSome_iff_exists.1
      (sound.explained job (JobStore.mem_of_find? found) failure)
    have ended : s.Failed job.id (job.lastError.getD "") :=
      ⟨job, found, failure, by simp [error]⟩
    have announce : (Announcement.failed job (storedKind (job.lastError.getD ""))
        (job.lastError.getD "")).Ensures (.bookkeeping anyRead) (fun _ _ => True) s :=
      Announcement.failed_ensures sound ended _
    refine (tryAnnounce_ensures announce).bind sound fun _ t _ later _ => ?_
    exact .pure ⟨rfl, holds.later later, ended.later later⟩
  · exact .pure ⟨rfl, holds, trivial⟩

theorem completeSuccess_ensures (sound : s.Sound) {job : Job} (holds : s.Holds job)
    (result : PublishResult) :
    (completeSuccess job result).Ensures (.publishing anyRead) (Reports job) s := by
  unfold completeSuccess
  refine (Ledger.succeed_ensures sound holds result).toServices.bind sound
    fun answer t soundT _ succeeded => ?_
  obtain ⟨done, post⟩ := answer
  obtain ⟨sameId, held, posted⟩ := succeeded
  cases post with
  | none =>
    refine (reportStored_ensures soundT held).weaken fun execution u => ?_
    rintro ⟨id, reports⟩
    exact ⟨id.trans sameId, reports⟩
  | some post =>
    obtain ⟨(success : done.status = .success), only⟩ := posted post rfl
    have found := held.2 (Job.isTerminal_iff.2 (by simp [success]))
    have published : t.Published done.id post := ⟨done, found, success, by rwa [sameId]⟩
    refine (tryAnnounce_ensures (Announcement.succeeded_ensures soundT published)).bind soundT
      fun _ u _ later _ => ?_
    exact .pure ⟨sameId, held.later later, published.later later⟩

theorem completeFailure_ensures (sound : s.Sound) {job : Job} (holds : s.Holds job)
    (kind : FailureKind) (message : String) :
    (completeFailure job kind message).Ensures (.publishing anyRead) (Reports job) s := by
  unfold completeFailure
  refine (Ledger.fail_ensures sound holds (kind.tagMessage message)).toServices.bind sound
    fun answer t soundT _ failed => ?_
  obtain ⟨done, isNew⟩ := answer
  obtain ⟨sameId, held, ended⟩ := failed
  cases isNew with
  | false =>
    refine (reportStored_ensures soundT held).weaken fun execution u => ?_
    rintro ⟨id, reports⟩
    exact ⟨id.trans sameId, reports⟩
  | true =>
    obtain ⟨(failure : done.status = .failed), error⟩ := ended rfl
    have found := held.2 (Job.isTerminal_iff.2 (by simp [failure]))
    have ended : t.Failed done.id (kind.tagMessage message) := ⟨done, found, failure, error⟩
    refine (tryAnnounce_ensures (Announcement.failed_ensures soundT ended kind)).bind soundT
      fun _ u soundU laterU _ => ?_
    have reports : ∀ {v}, u.Later v → ∀ retryRequested,
        Reports job ⟨done, .failed kind (kind.tagMessage message) retryRequested⟩ v :=
      fun later _ => ⟨sameId, (held.later laterU).later later, (ended.later laterU).later later⟩
    split
    · have request : (Announcement.retryRequested done (kind.tagMessage message)).Ensures
          (.bookkeeping anyRead) (fun _ _ => True) u :=
        Announcement.retryRequested_ensures soundU done _
      refine (tryAnnounce_ensures request).bind soundU fun taken v _ laterV _ => ?_
      exact .pure (reports laterV taken)
    · exact .pure (reports (.refl u) false)

theorem complete_ensures (sound : s.Sound) {job : Job} (holds : s.Holds job)
    (outcome : Except PublishError PublishResult) :
    (complete job outcome).Ensures (.publishing anyRead) (Reports job) s := by
  cases outcome with
  | ok result =>
    simp only [complete]
    split
    · exact completeSuccess_ensures sound holds result
    · exact completeFailure_ensures sound holds _ _
  | error error => exact completeFailure_ensures sound holds _ _

/-- What an execution does with the job that it opened. -/
def carryOut (engine : Engine) (request : Request) (job : Job) : Action Services Execution := do
  if job.isTerminal then return ⟨job, .alreadyCompleted⟩
  else
    let job ← (Ledger.start job).toServices
    if job.isTerminal then return ⟨job, .alreadyCompleted⟩
    else
      let _ ← (Announcement.started job).toServices
      let outcome ← .always (engine.attempt job request).run
      complete job outcome

theorem execute_eq (engine : Engine) (request : Request) : engine.execute request =
    (Ledger.openJob engine.retryBudget request).toServices >>= engine.carryOut request := rfl

theorem carryOut_ensures (sound : s.Sound) (engine : Engine) (request : Request) {job : Job}
    (holds : s.Holds job) :
    (engine.carryOut request job).Ensures (.publishing anyRead) (Reports job) s := by
  unfold carryOut
  split
  · exact .pure ⟨rfl, holds, trivial⟩
  · refine (Ledger.start_ensures sound holds).toServices.bind sound fun row t soundT _ started => ?_
    obtain ⟨sameId, holds⟩ := started
    split
    · exact .pure ⟨sameId, holds, trivial⟩
    · refine (Announcement.started_ensures soundT row).toServices.bind soundT
        fun _ u soundU laterU _ => ?_
      have attempt := Yields.meets (engine.attempt_yields row request).meets (.publishing anyRead)
        (fun _ outside _ => outside.permitted _) u
      refine (Ensures.always attempt).bind soundU fun outcome v soundV laterV _ => ?_
      have holds := (holds.later laterU).later laterV
      refine (complete_ensures soundV holds outcome).weaken fun execution w reports => ?_
      exact ⟨reports.1.trans sameId, reports.2⟩

/-- Whatever happens around it, an execution makes permitted calls only, and answers what is
stored. -/
theorem execute_ensures (sound : s.Sound) (engine : Engine) (request : Request) :
    (engine.execute request).Ensures (.publishing anyRead)
      (fun execution t => t.Holds execution.job ∧ execution.Agrees t) s := by
  rw [execute_eq]
  refine (Ledger.openJob_ensures sound engine.retryBudget request).toServices.bind sound
    fun job t soundT _ opened => ?_
  exact (carryOut_ensures soundT engine request (Stores.holds_of_find? opened.1)).weaken
    fun _ _ reports => reports.2

end Engine

end Syndication
