import Syndication.Proofs.Bookings
import Syndication.Proofs.Chronicle

namespace Syndication

/-- What an execution does for others to see. -/
inductive Deed where
  /-- An envelope was handed to the transport, which took it or not. -/
  | told (envelope : Envelope) (taken : Bool)
  /-- The row of a pending job was replaced by this finished one. -/
  | ended (job : Job)
  /-- A service other than the records was called, and a publisher came to this result. -/
  | asked (result : Option PublishResult)

namespace Deed

def ofRecord? : Records.Exchange → Option Deed
  | ⟨.send envelope, answer⟩ => some (.told envelope answer.toBool)
  | ⟨.updateJob job, .ok true⟩ => if job.isTerminal then some (.ended job) else none
  | _ => none

def of? : Services.Exchange → Option Deed
  | ⟨.records c, answer⟩ => ofRecord? ⟨c, answer⟩
  | ⟨.publish _ _, .ok result⟩ => some (.asked (some result))
  | _ => some (.asked none)

def IsAsked (deed : Deed) : Prop := ∃ result, deed = .asked result

end Deed

theorem RecordCall.IsSilent.unseen {c : RecordCall} (silent : c.IsSilent) (a : c.Answer) :
    Deed.ofRecord? ⟨c, a⟩ = none := by
  cases c with
  | send envelope => cases silent
  | insertPost post => cases silent
  | updateJob job =>
    have pending : job.status = .pending := silent
    cases a with
    | error fault => rfl
    | ok written => cases written <;> simp [Deed.ofRecord?, Job.isTerminal_eq_false pending]
  | _ => rfl

namespace Program

variable {α δ σ : Type} {scene : Scene Records σ} {s : σ}

/-- A program on the records does the same among all services, if as much of its calls is shown. -/
theorem Does.through {view : Records.Exchange → Option δ} {all : Services.Exchange → Option δ}
    (shown : ∀ c a, all ⟨.records c, a⟩ = view ⟨c, a⟩)
    {course : List δ → Stand α → σ → Prop} {past : List δ} {p : Program Records α}
    (does : p.Does scene view course past s) :
    (p.through fun c => .ask (I := Services) (.records c)).Does scene.withServices all course
      past s := by
  induction p generalizing past s with
  | done value => exact does
  | overflow => exact does
  | call c next ih =>
    refine ⟨does.1, fun t a u moved answered => ih a ?_⟩
    rw [shown]
    exact does.2 t a u moved answered

variable {past : List Deed}

/-- The record stays as it is, and the program cannot overflow. -/
def Unmarked (past : List Deed) : List Deed → Stand α → σ → Prop
  | _, .overflown, _ => False
  | now, _, _ => now = past

theorem now_unmarked : Records.now.Does scene Deed.ofRecord? (Unmarked past) past s :=
  .ask (I := Records) .now rfl fun _ _ _ _ _ => List.append_nil past

theorem freshId_unmarked : Records.freshId.Does scene Deed.ofRecord? (Unmarked past) past s :=
  .ask (I := Records) .freshId rfl fun _ _ _ _ _ => List.append_nil past

theorem timeOf_unmarked (known : Option Timestamp) :
    (Announcement.timeOf known).Does scene Deed.ofRecord? (Unmarked past) past s := by
  cases known with
  | none => exact now_unmarked
  | some time => rfl

end Program

theorem Action.Does.toServices {α σ : Type} {scene : Scene Records σ} {past : List Deed} {s : σ}
    {course : List Deed → Stand (Except PublishError α) → σ → Prop} {work : Action Records α}
    (does : work.Does scene Deed.ofRecord? course past s) :
    work.toServices.Does scene.withServices Deed.of? course past s :=
  ⟨does.does.through fun _ _ => rfl⟩

/-- What is recorded of a move of a job to its end: nothing, unless it is answered that the job was
moved. -/
def Moves {α σ : Type} (moved? : α → Option Job) (past : List Deed) :
    List Deed → Stand (Except PublishError α) → σ → Prop
  | now, .ended (.ok answer), _ => now = past ++ (moved? answer).toList.map .ended
  | now, _, _ => now = past

namespace Ledger

open Syndication.Action Program

variable {α β σ : Type} {scene : Scene Records σ} {past : List Deed} {s : σ}
  {moved? : α → Option Job}

theorem unseen_of_silent {x : Action Records α} (silent : x.CallsOnly RecordCall.IsSilent) :
    x.Does scene Deed.ofRecord? (fun now _ _ => now = past) past s :=
  CallsOnly.does (silent.mono fun _ is => is.unseen)

theorem moves_of_unseen {x : Action Records β} {f : β → Action Records α}
    (unseen : x.Does scene Deed.ofRecord? (fun now _ _ => now = past) past s)
    (next : ∀ value t, (f value).Does scene Deed.ofRecord? (Moves moved? past) past t) :
    (x >>= f).Does scene Deed.ofRecord? (Moves moved? past) past s := by
  refine unseen.bind (fun now stand last t broken same => ?_) fun now value t same => ?_
  · cases broken <;> exact same
  · obtain rfl := same
    exact next value t

/-- The last write of a move to an end, and what is answered after it. -/
theorem moves_of_updateJob {job : Job} (finished : job.isTerminal = true)
    {f : Bool → Action Records α}
    (written : ∀ t, (f true).Does scene Deed.ofRecord? (Moves moved? past) (past ++ [.ended job]) t)
    (overtaken : ∀ t, (f false).Does scene Deed.ofRecord? (Moves moved? past) past t) :
    (Action.persisted (Records.updateJob job) >>= f).Does scene Deed.ofRecord? (Moves moved? past)
      past s := by
  have update : (Action.persisted (Records.updateJob job)).Does scene Deed.ofRecord?
      (Moves (fun isNew => if isNew then some job else none) past) past s := by
    refine .persisted (.ask (I := Records) (.updateJob job) rfl fun t answer u _ _ => ?_)
    cases answer with
    | error fault => exact List.append_nil past
    | ok isNew => cases isNew <;> simp [Deed.ofRecord?, finished, Moves, Stand.map, Except.mapError]
  refine update.bind (fun now stand last t broken same => ?_) fun now isNew t same => ?_
  · cases broken <;> exact same
  · cases isNew with
    | true =>
      obtain rfl : now = past ++ [Deed.ended job] := same
      exact written t
    | false =>
      obtain rfl : now = past := same.trans (List.append_nil past)
      exact overtaken t

theorem now_unseen : (Action.always Records.now).Does scene Deed.ofRecord?
    (fun now _ _ => now = past) past s :=
  unseen_of_silent (.always (Yields.ask trivial))

theorem stored_unseen (id : JobId) :
    (stored id).Does scene Deed.ofRecord? (fun now _ _ => now = past) past s :=
  unseen_of_silent (stored_only trivial)

theorem recordPost_unseen (post : Post) :
    (recordPost post).Does scene Deed.ofRecord? (fun now _ _ => now = past) past s :=
  CallsOnly.does (recordPost_only (fun _ => rfl) fun _ => rfl)

theorem succeed_does (job : Job) (result : PublishResult) :
    (succeed job result).Does scene Deed.ofRecord?
      (Moves (fun answer => answer.2.map fun _ => answer.1) past) past s := by
  unfold succeed
  split
  · refine moves_of_unseen now_unseen fun now t => ?_
    rcases job.markSuccess_eq now with marked | ⟨candidate, marked, _, success⟩
    · simp only [marked]
      exact .pure (List.append_nil past).symm
    · simp only [marked]
      refine moves_of_unseen (stored_unseen job.id) fun row t => ?_
      split
      · exact .pure (List.append_nil past).symm
      · refine moves_of_unseen (unseen_of_silent (.always (Yields.ask trivial))) fun id t => ?_
        split
        · rename_i post _
          have finished : candidate.isTerminal = true := Job.isTerminal_iff.2 (by simp [success])
          unfold finish
          refine moves_of_unseen (recordPost_unseen post) fun recorded t => ?_
          refine moves_of_updateJob finished (fun t => .pure rfl) fun t => ?_
          refine moves_of_unseen (stored_unseen candidate.id) fun row t => ?_
          exact .pure (List.append_nil past).symm
        · exact .pure (List.append_nil past).symm
  · exact .throw rfl

theorem fail_does (job : Job) (message : String) :
    (fail job message).Does scene Deed.ofRecord?
      (Moves (fun answer => if answer.2 then some answer.1 else none) past) past s := by
  unfold fail
  refine moves_of_unseen now_unseen fun now t => ?_
  rcases job.markFailure_eq message now with marked | ⟨failed, marked, _, failure, _⟩
  · simp only [marked]
    exact .pure (List.append_nil past).symm
  · simp only [marked]
    have finished : failed.isTerminal = true := Job.isTerminal_iff.2 (by simp [failure])
    refine moves_of_updateJob finished (fun t => .pure rfl) fun t => ?_
    refine moves_of_unseen (stored_unseen job.id) fun row t => ?_
    exact .pure (List.append_nil past).symm

end Ledger

/-- What is recorded of the announcement of an event of a job, and of it alone. -/
def Tells {α σ : Type} (job : Job) (about : Event → Prop) (past : List Deed) :
    List Deed → Stand (Except PublishError α) → σ → Prop
  | now, .underway, _ => now = past
  | _, .overflown, _ => False
  | now, .ended outcome, _ => ∃ event, event.jobId = job.id ∧ about event ∧
      now = past ++ [.told (Announcement.envelope job event) outcome.toBool]

/-- A request for a retry takes up where the job ended. -/
structure RetryEvent.Continues (event : RetryEvent) (job : Job) : Prop where
  jobId : event.jobId = job.id
  userId : event.userId = job.userId
  accountId : event.accountId = job.accountId
  contentId : event.contentId = job.contentId
  platform : event.platform = job.platform
  postType : event.postType = job.postType
  idempotencyKey : event.idempotencyKey = job.idempotencyKey
  nextAttempt : event.nextAttempt = job.retryCount + 1
  maxRetries : event.maxRetries = job.maxRetries

/-- The event tells of a failure of this kind with this message. -/
structure FailedEvent.Says (event : FailedEvent) (kind : FailureKind) (message : String) :
    Prop where
  errorKind : event.errorKind = kind
  error : event.error = message
  retryable : event.retryable = kind.isRetryable

namespace Announcement

open Syndication.Action Program

variable {α β σ : Type} {scene : Scene Records σ} {past : List Deed} {s : σ} {job : Job}
  {about : Event → Prop}

theorem tells_of_unmarked {p : Program Records β} {f : β → Action Records α}
    (unmarked : p.Does scene Deed.ofRecord? (Unmarked past) past s)
    (next : ∀ value t, (f value).Does scene Deed.ofRecord? (Tells job about past) past t) :
    (Action.always p >>= f).Does scene Deed.ofRecord? (Tells job about past) past s := by
  refine .always_bind unmarked (fun now t same => same) (fun now t impossible => impossible)
    fun now value t same => ?_
  obtain rfl : now = past := same
  exact next value t

theorem tells_of_send {event : Event} (forJob : event.jobId = job.id) (is : about event)
    (value : α) : (send job event >>= fun _ => pure value).Does scene Deed.ofRecord?
      (Tells job about past) past s := by
  have sent : (send job event).Does scene Deed.ofRecord? (Tells job about past) past s := by
    refine .delivered (.ask (I := Records) (.send (envelope job event)) rfl
      fun t answer u _ _ => ?_)
    exact ⟨event, forJob, is, by cases answer <;> rfl⟩
  refine sent.bind (fun now stand last t broken is => ?_) fun now value t is => ?_
  · cases broken <;> exact is
  · exact .pure is

theorem started_tells (job : Job) : (started job).Does scene Deed.ofRecord?
    (Tells job (fun event => ∃ start, event = .started start) past) past s := by
  unfold started
  refine tells_of_unmarked freshId_unmarked fun id t => ?_
  refine tells_of_unmarked (timeOf_unmarked _) fun time t => ?_
  exact tells_of_send rfl ⟨_, rfl⟩ _

theorem succeeded_tells (job : Job) (post : Post) : (succeeded job post).Does scene Deed.ofRecord?
    (Tells job (fun event => ∃ success, event = .succeeded success) past) past s := by
  unfold succeeded
  refine tells_of_unmarked freshId_unmarked fun id t => ?_
  exact tells_of_send rfl ⟨_, rfl⟩ _

theorem failed_tells (job : Job) (kind : FailureKind) (message : String) :
    (failed job kind message).Does scene Deed.ofRecord?
      (Tells job (fun event => ∃ failure : FailedEvent,
        event = .failed failure ∧ failure.Says kind message) past) past s := by
  unfold failed
  refine tells_of_unmarked freshId_unmarked fun id t => ?_
  refine tells_of_unmarked (timeOf_unmarked _) fun time t => ?_
  exact tells_of_send rfl ⟨_, rfl, rfl, rfl, rfl⟩ _

theorem retryRequested_tells (job : Job) (reason : String) :
    (retryRequested job reason).Does scene Deed.ofRecord?
      (Tells job (fun event => ∃ retry : RetryEvent,
        event = .retryRequested retry ∧ retry.Continues job) past) past s := by
  unfold retryRequested
  refine tells_of_unmarked freshId_unmarked fun id t => ?_
  refine tells_of_unmarked now_unmarked fun time t => ?_
  refine tells_of_send rfl ⟨_, rfl, ?_⟩ _
  constructor <;> rfl

end Announcement

namespace Engine

open Syndication.Action Program

variable {α σ : Type} {scene : Scene Records σ} {past : List Deed} {s : σ} {job : Job}
  {about : Event → Prop}

/-- An announcement that is tried tells its event, and answers whether it was taken. -/
theorem tryAnnounce_does {announcement : Action Records α}
    (tells : announcement.Does scene Deed.ofRecord? (Tells job about past) past s) :
    (tryAnnounce announcement).Does scene.withServices Deed.of?
      (fun now stand _ => match stand with
        | .underway => now = past
        | .ended (.ok taken) => ∃ event, event.jobId = job.id ∧ about event ∧
            now = past ++ [.told (Announcement.envelope job event) taken]
        | _ => False) past s := by
  refine .always (.map (tells.toServices.does.weaken fun now stand t is => ?_))
  cases stand <;> exact is

theorem outside_asks {p : Program Services α} {scene : Scene Services σ} {post : α → Prop}
    (outside : p.Yields ServiceCall.IsOutside post) : p.Does scene Deed.of? (fun now _ _ =>
      ∃ asks, now = past ++ asks ∧ ∀ deed ∈ asks, deed.IsAsked) past s := by
  induction p generalizing past s with
  | done value => exact ⟨[], by simp⟩
  | overflow => exact ⟨[], by simp⟩
  | call c next ih =>
    obtain ⟨here, goesOn⟩ := outside () trivial trivial
    refine ⟨⟨[], by simp⟩, fun t a u _ _ => ?_⟩
    refine (ih a (goesOn a () trivial)).weaken fun now stand v => ?_
    rintro ⟨asks, rfl, asked⟩
    have first : ∀ deed ∈ (Deed.of? ⟨c, a⟩).toList, deed.IsAsked := by
      cases c with
      | records c =>
        cases c with
        | now => simp [Deed.of?, Deed.ofRecord?]
        | _ => cases here
      | publish platform context => cases a <;> simp [Deed.of?, Deed.IsAsked]
      | _ => simp [Deed.of?, Deed.IsAsked]
    exact ⟨(Deed.of? ⟨c, a⟩).toList ++ asks, by simp, List.forall_mem_append.2 ⟨first, asked⟩⟩

end Engine

end Syndication
