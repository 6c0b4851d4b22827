import Syndication.Proofs.PublishCalls

namespace Syndication

namespace Program

variable {I : Interface} {α β : Type} {alter : I.Exchange → I.Exchange}

/-- `p.Mirrors alter q`: whatever the calls of `p` are answered, `q` makes the altered calls and
comes to the same when they are answered as altered. -/
inductive Mirrors (alter : I.Exchange → I.Exchange) : Program I α → Program I α → Prop
  | done (value : α) : Mirrors alter (.done value) (.done value)
  | overflow : Mirrors alter .overflow .overflow
  | call {c d : I.Call} {next : I.Answer c → Program I α} {other : I.Answer d → Program I α}
      (answer : I.Answer c → I.Answer d) : (∀ a, alter ⟨c, a⟩ = ⟨d, answer a⟩) →
      (∀ a, Mirrors alter (next a) (other (answer a))) →
      Mirrors alter (.call c next) (.call d other)

theorem Mirrors.call_same {c : I.Call} {next other : I.Answer c → Program I α}
    (fixed : ∀ a, alter ⟨c, a⟩ = ⟨c, a⟩) (goesOn : ∀ a, (next a).Mirrors alter (other a)) :
    Mirrors alter (.call c next) (.call c other) := .call id fixed goesOn

theorem Mirrors.bind {p q : Program I α} {f g : α → Program I β} (mirrors : p.Mirrors alter q)
    (next : ∀ value, (f value).Mirrors alter (g value)) :
    (p.bind f).Mirrors alter (q.bind g) := by
  induction mirrors with
  | done value => exact next value
  | overflow => exact .overflow
  | call answer altered _ ih => exact .call answer altered ih

/-- A program whose calls stay as they are mirrors itself. -/
theorem Mirrors.refl {allowed : I.Call → Prop} {p : Program I α}
    (fixed : ∀ c, allowed c → ∀ a, alter ⟨c, a⟩ = ⟨c, a⟩)
    (only : p.Yields allowed fun _ => True) : p.Mirrors alter p := by
  induction p with
  | done value => exact .done value
  | overflow => exact .overflow
  | call c next ih =>
    obtain ⟨here, goesOn⟩ := only () trivial trivial
    exact .call_same (fixed c here) fun a => ih a (goesOn a () trivial)

end Program

namespace Action

open Program

variable {I : Interface} {α β : Type} {alter : I.Exchange → I.Exchange}

theorem mirrors_bind {x y : Action I α} {f g : α → Action I β}
    (first : x.run.Mirrors alter y.run)
    (second : ∀ value, (f value).run.Mirrors alter (g value).run) :
    (x >>= f).run.Mirrors alter (y >>= g).run := by
  rw [Action.run_bind, Action.run_bind]
  refine first.bind fun outcome => ?_
  cases outcome with
  | ok value => exact second value
  | error error => exact .done _

theorem mirrors_always {p q : Program I α} (mirrors : p.Mirrors alter q) :
    (Action.always p).run.Mirrors alter (Action.always q).run :=
  mirrors.bind fun _ => .done _

end Action

/-- The account in the hands of another user. -/
def Account.heldBy (owner : AccountId → UserId) (account : Account) : Account :=
  { account with userId := owner account.id }

@[simp] theorem Account.heldBy_id (owner : AccountId → UserId) (account : Account) :
    (account.heldBy owner).id = account.id := rfl

def PublishContext.heldBy (owner : AccountId → UserId) (context : PublishContext) :
    PublishContext := { context with account := context.account.heldBy owner }

/-- The exchange when the accounts belong to others. -/
def Services.reown (owner : AccountId → UserId) : Services.Exchange → Services.Exchange
  | ⟨.getAccount id, answer⟩ => ⟨.getAccount id, answer.map (Option.map (·.heldBy owner))⟩
  | ⟨.saveAccount account, answer⟩ => ⟨.saveAccount (account.heldBy owner), answer⟩
  | ⟨.publish publisher context, answer⟩ => ⟨.publish publisher (context.heldBy owner), answer⟩
  | exchange => exchange

/-- Calls that neither hand over an account nor ask for one. -/
def ServiceCall.NamesNoAccount : ServiceCall → Prop
  | .getAccount _ | .saveAccount _ | .publish .. => False
  | _ => True

section

open Syndication.Action Program

variable {owner : AccountId → UserId}

theorem Services.reown_eq {c : ServiceCall} (none : c.NamesNoAccount) (a : c.Answer) :
    reown owner ⟨c, a⟩ = ⟨c, a⟩ := by
  cases c with
  | getAccount | saveAccount | publish => cases none
  | _ => rfl

theorem mirrors_of_callsOnly {α : Type} {x : Action Services α}
    (only : x.CallsOnly ServiceCall.NamesNoAccount) :
    x.run.Mirrors (Services.reown owner) x.run :=
  .refl (fun _ none => Services.reown_eq none) (only.meets.weaken fun _ _ _ => trivial)

/-- Two actions that read an account go on alike if they do so with every account that may be read,
and with this account in other hands. -/
theorem mirrors_getAccount {α : Type} {id : AccountId} {f g : Option Account → Action Services α}
    (missing : (f none).run.Mirrors (Services.reown owner) (g none).run)
    (goesOn : ∀ account,
      (f (some account)).run.Mirrors (Services.reown owner) (g (some (account.heldBy owner))).run) :
    (Action.persisted (Services.getAccount id) >>= f).run.Mirrors (Services.reown owner)
      (Action.persisted (Services.getAccount id) >>= g).run := by
  refine .call (Except.map (Option.map (·.heldBy owner))) (fun _ => rfl) fun answer => ?_
  match answer with
  | .error fault => exact .done _
  | .ok none => exact missing
  | .ok (some account) => exact goesOn account

theorem mirrors_of_onRecords {α : Type} {x : Action Services α}
    (only : x.CallsOnly ServiceCall.IsOnRecords) :
    x.run.Mirrors (Services.reown owner) x.run := by
  refine mirrors_of_callsOnly (only.mono fun c onRecords => ?_)
  cases c with
  | records c => trivial
  | _ => cases onRecords

namespace RenewalPolicy

variable (policy : RenewalPolicy)

theorem askEndpoint_namesNoAccount (id : AccountId) (platform : Platform) (token : Secret) :
    (policy.askEndpoint id platform token).CallsOnly ServiceCall.NamesNoAccount := by
  unfold askEndpoint
  refine .bind (.always (Yields.ask trivial)) fun reply => ?_
  match reply with
  | .answered (.ok _) => exact .pure
  | .answered (.error _) => exact .throw
  | .timedOut => exact .throw

theorem applyGrant?_heldBy (owner : AccountId → UserId) (account : Account) (grant : TokenGrant)
    (now : Timestamp) : (account.heldBy owner).applyGrant? grant now =
      (account.applyGrant? grant now).map (·.heldBy owner) := by
  simp only [Account.applyGrant?, Option.map_map]
  rfl

theorem renewStored_mirrors (id : AccountId) (account : Account) (now : Timestamp) :
    (policy.renewStored id account now).run.Mirrors (Services.reown owner)
      (policy.renewStored id (account.heldBy owner) now).run := by
  unfold renewStored
  have same : (account.heldBy owner).usableRefreshToken? = account.usableRefreshToken? := rfl
  rw [same]
  cases account.usableRefreshToken? with
  | none => exact .done _
  | some token =>
    refine mirrors_bind (mirrors_of_callsOnly (policy.askEndpoint_namesNoAccount _ _ _))
      fun grant => ?_
    rw [applyGrant?_heldBy]
    cases account.applyGrant? grant now with
    | none => exact .overflow
    | some renewed =>
      have saves : (Action.persisted (Services.saveAccount renewed)).run.Mirrors
          (Services.reown owner)
          (Action.persisted (Services.saveAccount (renewed.heldBy owner))).run :=
        .call (fun answer => answer) (fun _ => rfl) fun _ => .done _
      have goesOn : (Action.persisted (Services.saveAccount renewed) >>= fun _ =>
          pure renewed.accessToken).run.Mirrors (Services.reown owner)
          (Action.persisted (Services.saveAccount (renewed.heldBy owner)) >>= fun _ =>
            pure renewed.accessToken).run := mirrors_bind saves fun _ => .done _
      exact goesOn

theorem validTokenInside_mirrors (id : AccountId) :
    (policy.validTokenInside id).run.Mirrors (Services.reown owner)
      (policy.validTokenInside id).run := by
  unfold validTokenInside
  refine mirrors_getAccount (.done _) fun account => ?_
  refine mirrors_bind (mirrors_of_callsOnly (.always (Yields.ask trivial))) fun now => ?_
  refine mirrors_bind (mirrors_of_callsOnly (.always Yields.ofCalendar)) fun expires => ?_
  cases expires with
  | true => exact policy.renewStored_mirrors id account now
  | false => exact .done _

theorem insideLock_mirrors {α : Type} (id : AccountId) {work : Action Services α}
    (mirrors : work.run.Mirrors (Services.reown owner) work.run) :
    (insideLock id work).run.Mirrors (Services.reown owner) (insideLock id work).run := by
  refine .call_same (fun _ => rfl) fun lease => .call_same (fun _ => rfl) fun _ => ?_
  refine mirrors.bind fun outcome => .call_same (fun _ => rfl) fun _ => ?_
  exact .call_same (fun _ => rfl) fun _ => .call_same (fun _ => rfl) fun _ => .done _

theorem validToken_mirrors (account : Account) :
    (policy.validToken account).run.Mirrors (Services.reown owner)
      (policy.validToken (account.heldBy owner)).run := by
  unfold validToken
  refine mirrors_bind (mirrors_of_callsOnly (.always (Yields.ask trivial))) fun now => ?_
  refine mirrors_bind (mirrors_of_callsOnly (.always Yields.ofCalendar)) fun expires => ?_
  cases expires with
  | true => exact insideLock_mirrors _ (policy.validTokenInside_mirrors _)
  | false => exact .done _

end RenewalPolicy

namespace Engine

variable (engine : Engine)

theorem checkPlatform_heldBy (job : Job) (account : Account) :
    checkPlatform job (account.heldBy owner) = checkPlatform job account := by
  unfold checkPlatform
  cases Platform.ofKey job.platform <;> rfl

theorem attempt_mirrors (job : Job) (request : Request) :
    (engine.attempt job request).run.Mirrors (Services.reown owner)
      (engine.attempt job request).run := by
  unfold attempt
  refine mirrors_getAccount (.done _) fun account => ?_
  simp only [checkPlatform_heldBy]
  refine mirrors_bind (mirrors_of_callsOnly .ofExcept) fun _ => ?_
  refine mirrors_bind (engine.renewal.validToken_mirrors account) fun token => ?_
  refine mirrors_bind (mirrors_of_callsOnly .ofExcept) fun publisher => ?_
  have publishes :
      (Action.always (Services.publish publisher ⟨request, account, token⟩)).run.Mirrors
      (Services.reown owner)
      (Action.always (Services.publish publisher ⟨request, account.heldBy owner, token⟩)).run :=
    .call (fun answer => answer) (fun _ => rfl) fun _ => .done _
  refine mirrors_bind publishes fun answer => ?_
  cases answer <;> exact .done _

/-- An execution makes the same calls whomever the accounts belong to. -/
theorem execute_mirrors (request : Request) :
    (engine.execute request).run.Mirrors (Services.reown owner) (engine.execute request).run := by
  unfold execute
  refine mirrors_bind (mirrors_of_onRecords (toServices_onRecords _)) fun job => ?_
  split
  · exact .done _
  refine mirrors_bind (mirrors_of_onRecords (toServices_onRecords _)) fun job => ?_
  split
  · exact .done _
  refine mirrors_bind (mirrors_of_onRecords (toServices_onRecords _)) fun _ => ?_
  refine mirrors_bind (mirrors_always (engine.attempt_mirrors job request)) fun outcome => ?_
  exact mirrors_of_onRecords (complete_onRecords job outcome)

end Engine

theorem Task.mirrors (task : Task) :
    task.action.run.Mirrors (Services.reown owner) task.action.run := by
  cases task with
  | execute engine request =>
    exact mirrors_bind (engine.execute_mirrors request) fun _ => .done _
  | _ => exact mirrors_bind (mirrors_of_onRecords (toServices_onRecords _)) fun _ => .done _

end

theorem Stores.replies_reown {owner : AccountId → UserId} {s t : Stores} {c d : ServiceCall}
    {a : c.Answer} {b : d.Answer} (answered : s.Replies c a t)
    (altered : Services.reown owner ⟨c, a⟩ = ⟨d, b⟩) : s.Replies d b t := by
  cases c <;>
    · cases altered
      exact answered

namespace Office

/-- The offices have the same stores and the same errands, which have come equally far. -/
structure Alike (owner : AccountId → UserId) (office other : Office) : Prop where
  stores : other.stores = office.stores
  length : other.errands.length = office.errands.length
  errand : ∀ {i : Nat} {task : Task} {p : Program Services (Except PublishError Reply)},
    office.errands[i]? = some ⟨task, p⟩ → ∃ q,
      other.errands[i]? = some ⟨task, q⟩ ∧ p.Mirrors (Services.reown owner) q

namespace Alike

variable {owner : AccountId → UserId} {office other : Office}

theorem handsOut (alike : Alike owner office other) {job : Job} (handsOut : office.HandsOut job) :
    other.HandsOut job := by
  obtain ⟨⟨task, rest⟩, member, reply, rfl, has⟩ := handsOut
  obtain ⟨i, here⟩ := List.getElem?_of_mem member
  obtain ⟨q, there, mirrors⟩ := alike.errand here
  cases mirrors
  exact ⟨_, List.mem_of_getElem? there, reply, rfl, has⟩

theorem add (alike : Alike owner office other) (task : Task) :
    Alike owner (office.add task) (other.add task) where
  stores := alike.stores
  length := by simp [Office.add, alike.length]
  errand {i old p} here := by
    simp only [Office.add] at here ⊢
    by_cases known : i < office.errands.length
    · rw [List.getElem?_append_left known] at here
      rw [List.getElem?_append_left (alike.length ▸ known)]
      exact alike.errand here
    · rw [List.getElem?_append_right (by omega)] at here
      rw [List.getElem?_append_right (by have := alike.length; omega), alike.length]
      obtain ⟨rfl, rfl⟩ := List.mem_singleton.1 (List.mem_of_getElem? here)
      exact ⟨_, here, task.mirrors⟩

theorem goOn (alike : Alike owner office other) {i : Nat} {task : Task}
    {p q : Program Services (Except PublishError Reply)}
    (mirrors : p.Mirrors (Services.reown owner) q) (stores : Stores) :
    Alike owner (office.goOn i ⟨task, p⟩ stores) (other.goOn i ⟨task, q⟩ stores) where
  stores := rfl
  length := by simp [Office.goOn, alike.length]
  errand {j old rest} here := by
    simp only [Office.goOn] at here ⊢
    by_cases same : i = j
    · subst same
      obtain ⟨known, is⟩ := List.getElem?_eq_some_iff.1 here
      rw [List.length_set] at known
      rw [List.getElem?_set_self known] at here
      cases here
      exact ⟨q, List.getElem?_set_self (alike.length ▸ known), mirrors⟩
    · rw [List.getElem?_set_ne same] at here ⊢
      exact alike.errand here

end Alike

/-- Any run may happen when the accounts belong to others. The calls are the same, but for the users
that accounts are handed out with. -/
theorem Runs.reown {log : OfficeLog} {office : Office} (reached : Runs {} log office)
    (owner : AccountId → UserId) : ∃ other,
      Runs {} (log.map fun entry => (entry.1, Services.reown owner entry.2)) other ∧
      Alike owner office other := by
  induction reached with
  | refl => exact ⟨{}, .refl, rfl, rfl, fun here => by simp at here⟩
  | add task _ handedOut ih =>
    obtain ⟨other, runs, alike⟩ := ih
    exact ⟨_, runs.add task fun job has => alike.handsOut (handedOut job has), alike.add task⟩
  | @call log office i task c next a stores _ here answered ih =>
    obtain ⟨other, runs, alike⟩ := ih
    obtain ⟨_, there, mirrors⟩ := alike.errand here
    cases mirrors with
    | @call _ d _ goesOn answer altered mirrors =>
      have replies : other.stores.Replies d (answer a) stores := by
        rw [alike.stores]
        exact Stores.replies_reown answered (altered a)
      refine ⟨_, ?_, alike.goOn (mirrors a) stores⟩
      simpa [altered a] using runs.call there replies

end Office

theorem OfficeLog.mem_of_reown {log : OfficeLog} {i : Nat} {exchange : Services.Exchange}
    (member : exchange ∈ log.of i) (owner : AccountId → UserId) : Services.reown owner exchange ∈
      OfficeLog.of (log.map fun entry => (entry.1, Services.reown owner entry.2)) i :=
  OfficeLog.mem_of.2 (List.mem_map_of_mem (OfficeLog.mem_of.1 member))

namespace Publisher

variable {base : Platform → String} {platform : Platform} {context : PublishContext}
  {log : List Web.Exchange} {rest : Program Web (Except PlatformError PublishResult)}

/-- A publisher reads the content of the request and goes on with it, whomever the account and the
content belong to. -/
theorem publish_eq_withContent (base : Platform → String) (platform : Platform)
    (context : PublishContext) : ∃ publishItem : ContentItem → Work PublishResult,
      (∀ owner, publish base platform (context.heldBy owner) =
        Work.withContent context publishItem) ∧
      publish base platform context = Work.withContent context publishItem ∧
      ∀ item user, publishItem { item with userId := user } = publishItem item := by
  cases platform <;> exact ⟨_, fun _ => rfl, rfl, fun _ _ => rfl⟩

/-- A publisher that sent a request has read the content of its request before. It makes the same
calls from there on whomever the account and the content belong to. -/
theorem publish_reads (follows : (publish base platform context).run.Follows log rest)
    (sent : Web.requests log ≠ []) : ∃ item later,
      log = ⟨.findContent context.request.contentId, .ok (some item)⟩ :: later ∧
      ∀ owner user, (publish base platform (context.heldBy owner)).run.Follows
        (⟨.findContent context.request.contentId, .ok (some { item with userId := user })⟩ :: later)
        rest := by
  obtain ⟨publishItem, others, same, content⟩ := publish_eq_withContent base platform context
  rw [same] at follows
  cases follows with
  | stop => exact absurd rfl sent
  | @call _ _ answer later _ follows =>
    match answer with
    | .error fault =>
      cases follows
      exact absurd rfl sent
    | .ok none =>
      cases follows
      exact absurd rfl sent
    | .ok (some item) =>
      refine ⟨item, later, rfl, fun owner user => ?_⟩
      rw [others]
      refine .call ?_
      change (publishItem { item with userId := user }).run.Follows later rest
      rw [content]
      exact follows

end Publisher

/-- A store of accounts that belong to others answers so. -/
theorem AccountStore.Answered.reown {exchange : Services.Exchange}
    (answered : AccountStore.Answered exchange) (owner : AccountId → UserId) :
    AccountStore.Answered (Services.reown owner exchange) := by
  obtain ⟨c, answer⟩ := exchange
  cases c with
  | getAccount id =>
    cases answer with
    | error fault => trivial
    | ok found =>
      obtain ⟨store, rfl⟩ := answered
      refine ⟨{ rows := store.rows.map (·.heldBy owner) }, ?_⟩
      simp [AccountStore.find?, List.find?_map, Function.comp_def]
  | _ => trivial

namespace Office

variable {log : OfficeLog} {office : Office} {i : Nat} {engine : Engine} {request : Request}
  {rest : Program Services (Except PublishError Reply)} {strategy : Platform}
  {context : PublishContext} {answer : Except PlatformError PublishResult}

/-- Whom an execution publishes for. Take any run of an office from its beginning, with any tasks,
any order of calls and any answers and faults, and an execution in it that calls a publisher. It
started a job of the user of the request before, for the account and the content of the request, and
it hands over the account that was read under the identifier in the request. The publisher sends a
request only after it has read the content item under the identifier in the request. Nothing depends
on the users that the account and the content item belong to: the run may happen with the same calls
when all accounts belong to others, and the publisher makes the same calls when the account and the
content item do. -/
theorem publish_any_owner (reached : Runs {} log office)
    (here : office.errands[i]? = some ⟨.execute engine request, rest⟩)
    (asked : ⟨.publish strategy context, answer⟩ ∈ log.of i) :
    (∃ job ∈ office.stores.jobs.rows, job.userId = request.userId ∧
      job.accountId = request.accountId ∧ job.contentId = request.contentId ∧
      ∃ before after start, log.of i =
          before ++ (⟨.getAccount request.accountId, .ok (some context.account)⟩ :: after) ∧
        ⟨.publish strategy context, answer⟩ ∈ after ∧
        ⟨.records (.send start), .ok ()⟩ ∈ before ∧ start.eventType = "publish.started.v1" ∧
        start.IsFor job) ∧
    (∀ base calls left, (Publisher.publish base strategy context).run.Follows calls left →
      Web.requests calls ≠ [] → ∃ item later,
        calls = ⟨.findContent request.contentId, .ok (some item)⟩ :: later ∧
        ∀ owner user, (Publisher.publish base strategy (context.heldBy owner)).run.Follows
          (⟨.findContent request.contentId, .ok (some { item with userId := user })⟩ :: later)
          left) ∧
    ∀ owner, ∃ other rest,
      Runs {} (log.map fun entry => (entry.1, Services.reown owner entry.2)) other ∧
      other.stores = office.stores ∧
      other.errands[i]? = some ⟨.execute engine request, rest⟩ ∧
      ⟨.publish strategy (context.heldBy owner), answer⟩ ∈
        OfficeLog.of (log.map fun entry => (entry.1, Services.reown owner entry.2)) i := by
  obtain ⟨job, member, before, _, _, start, parts, sent, type, isFor, fits, ofRequest, _⟩ :=
    reached.publish_called here asked
  obtain ⟨user, account, content, _⟩ := Job.matchesRequest_eq fits
  refine ⟨⟨job, member, user, account, content, before, _, start, account ▸ parts, by simp, sent,
    type, isFor⟩, fun base calls left follows sent => ?_, fun owner => ?_⟩
  · rw [← ofRequest]
    exact Publisher.publish_reads follows sent
  · obtain ⟨other, runs, alike⟩ := reached.reown owner
    obtain ⟨rest, there, _⟩ := alike.errand here
    exact ⟨other, rest, runs, alike.stores, there, OfficeLog.mem_of_reown asked owner⟩

open Rehearsal

/-- An upload for the user whose account and video they are. The same upload may happen when the
account belongs to another user. -/
theorem publish_any_owner_upload : ∃ log office rest, Runs {} log office ∧
    office.errands[0]? = some ⟨.execute Cast.engine Cast.request, rest⟩ ∧
    ⟨.publish .youtube Cast.context, Cast.uploaded⟩ ∈ log.of 0 ∧
    (∃ job ∈ office.stores.jobs.rows, job.userId = Cast.user) ∧
    ∀ owner, ∃ other,
      Runs {} (log.map fun entry => (entry.1, Services.reown owner entry.2)) other := by
  obtain ⟨rest, here⟩ := Cast.ending_errand Cast.uploaded
  have reached := (Cast.ending_isRun Cast.uploaded).1
  obtain ⟨⟨job, member, user, _⟩, _, owners⟩ :=
    publish_any_owner reached here Cast.uploaded_called
  refine ⟨_, _, rest, reached, here, Cast.uploaded_called, ⟨job, member, user⟩, fun owner => ?_⟩
  obtain ⟨other, _, runs, _⟩ := owners owner
  exact ⟨other, runs⟩

end Office

namespace Rehearsal.Cast

def stranger : UserId := ⟨"user-2", by decide +kernel⟩

/-- An account and a video of a user other than the one in the request. -/
def lentContext : PublishContext := context.heldBy fun _ => stranger

def lentItem : ContentItem := { item with userId := stranger }

def lentLine : (c : WebCall) → List (Except Http.SendFault Http.Reply) →
    c.Answer × List (Except Http.SendFault Http.Reply)
  | .findContent _, answers => (.ok (some lentItem), answers)
  | c, answers => line c answers

/-- The upload of this video through this account. -/
def lentUpload : Program Web (Except PlatformError PublishResult) :=
  (Publisher.publish Publisher.defaultBase .youtube lentContext).run

def lentUploading : List Web.Exchange :=
  lentUpload.transcript lentLine [answer 200 "", answer 200 (naming "video-1")]

theorem lentUpload_follows : lentUpload.Follows lentUploading (.done uploaded) := by
  obtain ⟨rest, follows, isOver⟩ := lentUpload.exists_follows lentLine
    [answer 200 "", answer 200 (naming "video-1")]
  obtain ⟨outcome, rfl, _, names⟩ := Publisher.publish_outcome follows isOver
  have replied : Web.reply? lentUploading 1 = some (success (naming "video-1")) := by
    decide +kernel
  have named : Publisher.postId? .youtube (success (naming "video-1")) = some "video-1" := by
    decide +kernel
  obtain rfl := names _ ⟨success (naming "video-1"), replied, rfl, named⟩
  exact follows

end Rehearsal.Cast

namespace Office

open Rehearsal

/-- The account and the video belong to another user than the request. The account store answers
from its rows, the publisher is called with the account, and the video is uploaded. -/
theorem published_for_stranger : ∃ log office rest, Runs {} log office ∧
    office.errands[0]? = some ⟨.execute Cast.engine Cast.request, rest⟩ ∧
    (∀ exchange ∈ log.of 0, AccountStore.Answered exchange) ∧
    ⟨.publish .youtube Cast.lentContext, Cast.uploaded⟩ ∈ log.of 0 ∧
    Cast.lentContext.account.userId ≠ Cast.request.userId ∧
    Cast.lentUpload.Follows Cast.lentUploading (.done Cast.uploaded) ∧
    (∃ later, Cast.lentUploading =
      ⟨.findContent Cast.request.contentId, .ok (some Cast.lentItem)⟩ :: later) ∧
    Cast.lentItem.userId ≠ Cast.request.userId ∧ (Web.requests Cast.lentUploading).length = 2 := by
  obtain ⟨rest, here⟩ := Cast.ending_errand Cast.uploaded
  obtain ⟨other, runs, alike⟩ :=
    (Cast.ending_isRun Cast.uploaded).1.reown fun _ => Cast.stranger
  obtain ⟨_, there, _⟩ := alike.errand here
  refine ⟨_, other, _, runs, there, fun exchange member => ?_,
    OfficeLog.mem_of_reown Cast.uploaded_called _, by decide +kernel, Cast.lentUpload_follows,
    ⟨_, rfl⟩, by decide +kernel, by decide +kernel⟩
  obtain ⟨⟨_, exchange⟩, inLog, ⟨⟩⟩ := List.mem_map.1 (OfficeLog.mem_of.1 member)
  exact (Cast.uploaded_answered exchange (OfficeLog.mem_of.2 inLog)).reown _

end Office

end Syndication
