import Syndication.Proofs.Custody
import Syndication.Proofs.Veils

namespace Syndication

/-- Two values that are there or not are alike when they are the same to those who see them
through a function. -/
theorem rel_of_map_eq {α β γ : Type} {f : α → γ} {g : β → γ} {value : Option α} {other : Option β}
    (same : value.map f = other.map g) : Option.Rel (fun a b => f a = g b) value other := by
  match value, other with
  | none, none => exact .none
  | some _, some _ => exact .some (Option.some.inj same)

namespace Secret

/-- What is shown of a secret. -/
def hidden : Secret := ⟨"[REDACTED]"⟩

/-- The secret if it is empty, and otherwise what is shown of it. -/
def masked (secret : Secret) : Secret := if secret.expose.isEmpty then secret else hidden

/-- What is shown of a secret that can be used if it is there and not empty. -/
def usable (secret : Option Secret) : Option Secret :=
  (secret.filter fun secret => !secret.expose.isEmpty).map fun _ => hidden

theorem usable_usable (secret : Option Secret) : usable (usable secret) = usable secret := by
  rw [usable, usable]
  cases secret.filter fun secret => !secret.expose.isEmpty <;> rfl

/-- Whether the newer of two secrets can be used is seen when both are hidden. -/
theorem usable_or (newer older : Option Secret) :
    usable ((newer.map masked).or (usable older)) = usable (newer.or older) := by
  cases newer with
  | none => exact usable_usable older
  | some secret =>
    by_cases empty : secret.expose.isEmpty = true
    · simp only [Option.map_some, Option.some_or, masked, if_pos empty]
    · simp only [Option.map_some, Option.some_or, masked, if_neg empty, usable, Option.filter]
      simp [empty, hidden]

end Secret

/-- The account without its tokens. It is still seen whether a refresh token can be used. -/
def Account.redacted (account : Account) : Account :=
  { account with accessToken := .hidden, refreshToken := Secret.usable account.refreshToken }

/-- The grant without its tokens. It is still seen whether there is a refresh token, and whether it
is empty. -/
def TokenGrant.redacted (grant : TokenGrant) : TokenGrant :=
  { grant with accessToken := .hidden, refreshToken := grant.refreshToken.map Secret.masked }

def TokenReply.redacted : TokenReply → TokenReply
  | .answered answer => .answered (answer.map TokenGrant.redacted)
  | .timedOut => .timedOut

def PublishContext.redacted (context : PublishContext) : PublishContext :=
  { context with account := context.account.redacted, accessToken := .hidden }

@[simp] theorem PublishContext.redacted_request (context : PublishContext) :
    context.redacted.request = context.request := rfl

def ServiceCall.redacted : ServiceCall → ServiceCall
  | .saveAccount account => .saveAccount account.redacted
  | .renew platform _ limit => .renew platform .hidden limit
  | .publish publisher context => .publish publisher context.redacted
  | c => c

/-- Services whose tokens are hidden. -/
def Services.veil : Veil Services where
  call := ServiceCall.redacted
  exchange
    | ⟨.getAccount id, answer⟩ => ⟨.getAccount id, answer.map (Option.map Account.redacted)⟩
    | ⟨.saveAccount account, answer⟩ => ⟨.saveAccount account.redacted, answer⟩
    | ⟨.renew platform _ limit, reply⟩ => ⟨.renew platform .hidden limit, reply.redacted⟩
    | ⟨.publish publisher context, answer⟩ => ⟨.publish publisher context.redacted, answer⟩
    | exchange => exchange

namespace Account

variable {account other : Account} {grant again : TokenGrant}

/-- A renewal comes to the same account but for the tokens. -/
theorem applyGrant?_redacted (account : Account) (grant : TokenGrant) (now : Timestamp) :
    (account.redacted.applyGrant? grant.redacted now).map redacted =
      (account.applyGrant? grant now).map redacted := by
  have rotated := Secret.usable_or grant.refreshToken account.refreshToken
  simp only [applyGrant?, Option.map_map]
  refine congrArg (Option.map · _) (funext fun expiry => ?_)
  simp only [Function.comp_apply, redacted, TokenGrant.redacted, rotated]

theorem applyGrant?_alike (sameAccount : account.redacted = other.redacted)
    (sameGrant : grant.redacted = again.redacted) (now : Timestamp) :
    Option.Rel (fun renewed again => renewed.redacted = again.redacted)
      (account.applyGrant? grant now) (other.applyGrant? again now) := by
  apply rel_of_map_eq
  rw [← applyGrant?_redacted, sameAccount, sameGrant, applyGrant?_redacted]

@[simp] theorem redacted_id (account : Account) : account.redacted.id = account.id := rfl

theorem usable_eq_iff : Secret.usable account.refreshToken = Secret.usable other.refreshToken ↔
    account.hasRefreshToken = other.hasRefreshToken := by
  change account.usableRefreshToken?.map _ = other.usableRefreshToken?.map _ ↔ _
  rw [hasRefreshToken, hasRefreshToken]
  cases account.usableRefreshToken? <;> cases other.usableRefreshToken? <;> simp

/-- Accounts look alike if they differ only in their tokens, and a refresh token can be used in both
or in none. -/
theorem redacted_eq_iff : account.redacted = other.redacted ↔
    account = { other with
      accessToken := account.accessToken
      refreshToken := account.refreshToken } ∧
    account.hasRefreshToken = other.hasRefreshToken := by
  rw [← usable_eq_iff]
  constructor
  · intro same
    cases account
    cases other
    simp_all [redacted]
  · rintro ⟨fields, usable⟩
    rw [redacted, redacted, usable, fields]

/-- What decides about a renewal, besides the refresh token, is no secret. -/
theorem eq_of_redacted (same : account.redacted = other.redacted) :
    account.id = other.id ∧ account.platform = other.platform ∧
      account.expiresAt = other.expiresAt := by
  obtain ⟨fields, _⟩ := redacted_eq_iff.1 same
  rw [fields]
  exact ⟨rfl, rfl, rfl⟩

theorem usableRefreshToken?_alike (same : account.redacted = other.redacted) :
    Option.Rel (fun _ _ => True) account.usableRefreshToken? other.usableRefreshToken? := by
  obtain ⟨_, has⟩ := redacted_eq_iff.1 same
  rw [hasRefreshToken, hasRefreshToken] at has
  generalize account.usableRefreshToken? = token, other.usableRefreshToken? = again at has
  match token, again with
  | none, none => exact .none
  | some _, some _ => exact .some trivial

end Account

/-- Calls in which, and in whose answers, there are no tokens. -/
def ServiceCall.IsPlain : ServiceCall → Prop
  | .getAccount _ | .saveAccount _ | .renew .. | .publish .. => False
  | _ => True

section

open Syndication.Action Program

/-- A call without tokens is seen as it is. -/
theorem ServiceCall.IsPlain.eq_of_redacted {c d : ServiceCall} (plain : c.IsPlain)
    (seen : c.redacted = d.redacted) : c = d := by
  cases c with
  | getAccount | saveAccount | renew | publish => cases plain
  | _ =>
    cases d with
    | getAccount | saveAccount | renew | publish => cases seen
    | _ => exact seen

theorem Services.seen_of_isPlain (c : ServiceCall) (plain : c.IsPlain) (a b : c.Answer)
    (same : veil.exchange ⟨c, a⟩ = veil.exchange ⟨c, b⟩) : a = b := by
  cases c with
  | getAccount | saveAccount | renew | publish => cases plain
  | _ => exact eq_of_heq (Sigma.mk.inj same).2

theorem Action.CallsOnly.couples {α : Type} {x : Action Services α}
    (plain : x.CallsOnly ServiceCall.IsPlain) : x.Couples Services.veil Eq x :=
  .refl Services.seen_of_isPlain plain

theorem Action.CallsOnly.couples_onRecords {α : Type} {x : Action Services α}
    (only : x.CallsOnly ServiceCall.IsOnRecords) : x.Couples Services.veil Eq x := by
  refine CallsOnly.couples (only.mono fun c onRecords => ?_)
  cases c with
  | records c => trivial
  | _ => cases onRecords

/-- An account is read. -/
theorem Services.getAccount_couples (id : AccountId) :
    (Action.persisted (Services.getAccount id)).Couples Services.veil
      (fun found other => found.map Account.redacted = other.map Account.redacted)
      (Action.persisted (Services.getAccount id)) := by
  have reads : (Services.getAccount id).Couples veil (fun answer other =>
      answer.map (Option.map Account.redacted) = other.map (Option.map Account.redacted))
      (Services.getAccount id) :=
    .call rfl fun _ _ same => .done (eq_of_heq (Sigma.mk.inj same).2)
  exact .persisted (reads.mono fun _ _ same => ends_iff_map.mpr same)

theorem Services.saveAccount_couples {account other : Account}
    (same : account.redacted = other.redacted) :
    (Action.persisted (Services.saveAccount account)).Couples Services.veil Eq
      (Action.persisted (Services.saveAccount other)) := by
  have saves : (Services.saveAccount account).Couples veil Eq (Services.saveAccount other) :=
    .call (congrArg ServiceCall.saveAccount same) fun _ _ same =>
      .done (eq_of_heq (Sigma.mk.inj same).2)
  exact .persisted (saves.mono fun answer _ same => same ▸ .refl answer)

namespace RenewalPolicy

variable (policy : RenewalPolicy)

/-- An endpoint is asked with different tokens, and grants different ones. -/
theorem askEndpoint_couples (id : AccountId) (platform : Platform) (token other : Secret) :
    (policy.askEndpoint id platform token).Couples Services.veil
      (fun grant again => grant.redacted = again.redacted)
      (policy.askEndpoint id platform other) := by
  unfold askEndpoint
  have asks : (Services.renew platform token policy.limit).Couples Services.veil
      (fun reply again => reply.redacted = again.redacted)
      (Services.renew platform other policy.limit) :=
    .call rfl fun _ _ same => .done (eq_of_heq (Sigma.mk.inj same).2)
  refine .bind (.always asks) fun reply again same => ?_
  match reply, again with
  | .answered (.ok grant), .answered (.ok other) =>
    exact .pure (Except.ok.inj (TokenReply.answered.inj same))
  | .answered (.error error), .answered (.error other) =>
    obtain rfl : error = other := Except.error.inj (TokenReply.answered.inj same)
    exact .throw
  | .timedOut, .timedOut => exact .throw
  | .answered (.ok _), .answered (.error _) | .answered (.error _), .answered (.ok _) =>
    cases TokenReply.answered.inj same
  | .answered _, .timedOut | .timedOut, .answered _ => cases same

/-- Two accounts that look alike are renewed alike, with different tokens. -/
theorem renewStored_couples {account other : Account} (same : account.redacted = other.redacted)
    (id : AccountId) (now : Timestamp) :
    (policy.renewStored id account now).Couples Services.veil (fun _ _ => True)
      (policy.renewStored id other now) := by
  obtain ⟨_, platform, _⟩ := Account.eq_of_redacted same
  have usable := Account.usableRefreshToken?_alike same
  unfold renewStored
  rw [platform]
  generalize account.usableRefreshToken? = token, other.usableRefreshToken? = again at usable
  cases usable with
  | none => exact .throw
  | some _ =>
    refine .bind (policy.askEndpoint_couples id other.platform _ _) fun grant _ sameGrant => ?_
    have applies := Account.applyGrant?_alike same sameGrant now
    refine .bind (.always (.ofCalendar applies)) fun renewed again same => ?_
    exact .bind (Services.saveAccount_couples same) fun _ _ _ => .pure trivial

/-- Accounts that look alike have tokens that last, or need the work that is done for those that do
not. -/
theorem unlessLasting_couples {account other : Account} (same : account.redacted = other.redacted)
    {work workToo : Timestamp → Action Services Secret}
    (works : ∀ now, (work now).Couples Services.veil (fun _ _ => True) (workToo now)) :
    Action.Couples Services.veil (fun _ _ => True)
      (do
        let now ← .always Services.now
        if ← .always (policy.needsRenewal account now) then work now
        else return account.accessToken)
      (do
        let now ← .always Services.now
        if ← .always (policy.needsRenewal other now) then workToo now
        else return other.accessToken) := by
  obtain ⟨_, _, expires⟩ := Account.eq_of_redacted same
  have needs (now : Timestamp) :
      policy.needsRenewal account now = policy.needsRenewal other now := by
    rw [needsRenewal, needsRenewal, Account.needsRefresh?, Account.needsRefresh?, expires]
  have reads : (Action.always Services.now).CallsOnly ServiceCall.IsPlain :=
    .always (Yields.ask trivial)
  refine .bind reads.couples fun now _ again => ?_
  subst again
  rw [needs]
  have checks : (Action.always (policy.needsRenewal other now)).CallsOnly ServiceCall.IsPlain :=
    .always Yields.ofCalendar
  refine .bind checks.couples fun expired _ again => ?_
  subst again
  cases expired with
  | true => exact works now
  | false => exact .pure trivial

theorem validTokenInside_couples (id : AccountId) :
    (policy.validTokenInside id).Couples Services.veil (fun _ _ => True)
      (policy.validTokenInside id) := by
  unfold validTokenInside
  refine .bind (Services.getAccount_couples id) fun found other same => ?_
  match found, other with
  | none, none => exact .throw
  | none, some _ | some _, none => cases same
  | some account, some other =>
    have same : account.redacted = other.redacted := Option.some.inj same
    exact policy.unlessLasting_couples same fun now => policy.renewStored_couples same id now

theorem insideLock_couples {α : Type} (id : AccountId) {ends : α → α → Prop}
    {work other : Action Services α} (couples : work.Couples Services.veil ends other) :
    (insideLock id work).Couples Services.veil ends (insideLock id other) := by
  have asks {c : ServiceCall} (plain : c.IsPlain) : Program.Couples Services.veil Eq
      (Program.ask (I := Services) c) (Program.ask (I := Services) c) :=
    .call rfl fun a b same => .done (Services.seen_of_isPlain c plain a b same)
  refine Program.Couples.bind (asks (c := .lease id) trivial) fun lease _ same => ?_
  subst same
  refine Program.Couples.bind (asks (c := .enter lease) trivial) fun _ _ _ => ?_
  refine Program.Couples.bind couples fun outcome again reached => ?_
  refine Program.Couples.bind (asks (c := .leave lease) trivial) fun _ _ _ => ?_
  refine Program.Couples.bind (asks (c := .giveBack lease) trivial) fun _ _ _ => ?_
  exact Program.Couples.bind (asks (c := .sweep id) trivial) fun _ _ _ => .done reached

/-- For two accounts that look alike, a token is found alike. The tokens may be different. -/
theorem validToken_couples {account other : Account} (same : account.redacted = other.redacted) :
    (policy.validToken account).Couples Services.veil (fun _ _ => True)
      (policy.validToken other) := by
  obtain ⟨sameId, _, _⟩ := Account.eq_of_redacted same
  unfold validToken
  rw [sameId]
  have renews := insideLock_couples other.id (policy.validTokenInside_couples other.id)
  exact policy.unlessLasting_couples same fun _ => renews

end RenewalPolicy

namespace Engine

variable (engine : Engine)

/-- Attempts for the same job come to the same result. -/
theorem attempt_couples (job : Job) (request : Request) :
    (engine.attempt job request).Couples Services.veil Eq (engine.attempt job request) := by
  unfold attempt
  refine .bind (Services.getAccount_couples job.accountId) fun found other same => ?_
  match found, other with
  | none, none => exact .throw
  | none, some _ | some _, none => cases same
  | some account, some other =>
    have same : account.redacted = other.redacted := Option.some.inj same
    have checked : checkPlatform job account = checkPlatform job other := by
      obtain ⟨sameId, platform, _⟩ := Account.eq_of_redacted same
      rw [checkPlatform, checkPlatform, sameId, platform]
    simp only [checked]
    refine .bind .ofExcept fun _ _ _ => ?_
    refine .bind (engine.renewal.validToken_couples same) fun token again _ => ?_
    refine .bind .ofExcept fun publisher _ again => ?_
    subst again
    have publishes : (Services.publish publisher ⟨request, account, token⟩).Couples Services.veil
        Eq (Services.publish publisher ⟨request, other, again⟩) := by
      refine .call ?_ fun _ _ same => .done (eq_of_heq (Sigma.mk.inj same).2)
      simp [Services.veil, ServiceCall.redacted, PublishContext.redacted, same]
    refine .bind (.always publishes) fun answer _ again => ?_
    subst again
    cases answer with
    | ok result => exact .pure rfl
    | error error => exact .throw

/-- Executions of the same request come to the same end, whatever the tokens are. -/
theorem execute_couples (request : Request) :
    (engine.execute request).Couples Services.veil Eq (engine.execute request) := by
  unfold execute
  refine .bind (toServices_onRecords _).couples_onRecords fun job _ same => ?_
  subst same
  split
  · exact .pure rfl
  refine .bind (toServices_onRecords _).couples_onRecords fun row _ same => ?_
  subst same
  split
  · exact .pure rfl
  refine .bind (toServices_onRecords _).couples_onRecords fun _ _ _ => ?_
  have attempts := (engine.attempt_couples row request).mono fun _ _ reached => reached.eq
  refine .bind (.always attempts) fun outcome _ same => ?_
  subst same
  exact (complete_onRecords row outcome).couples_onRecords

end Engine

end

/-- Calls in the order in which they were made, without their tokens. -/
abbrev CallLog : Type := List ServiceCall

/-- What is written down: rows of jobs, posts, and the events in the order in which they were
sent. -/
structure Books where
  stores : Stores := {}
  sent : List Envelope := []

/-- The surroundings of executions, with all stores in memory. -/
structure World where
  books : Books := {}
  accounts : AccountStore := {}
  locks : LockTable := {}
  log : CallLog := []

/-- What the surroundings add of their own to a call. They see the calls up to this one, but no
tokens. -/
structure Script where
  clock : CallLog → Timestamp
  ids : CallLog → Uuid
  /-- Says whether the call, on a store or on the event transport, is to fail. -/
  faults : CallLog → Option ServiceFault
  published : CallLog → Platform → Request → Except PlatformError PublishResult
  granted : CallLog → Platform → TokenReply

namespace Script

variable (script : Script)

/-- Does the work of a call, unless the call is to fail. -/
def unlessFaulty {α σ : Type} (log : CallLog) (s : σ) (work : Except ServiceFault (α × σ)) :
    Except ServiceFault α × σ :=
  match script.faults log with
  | some fault => (.error fault, s)
  | none =>
    match work with
    | .ok (value, s) => (.ok value, s)
    | .error fault => (.error fault, s)

/-- Answers a call on the records. -/
def keep (log : CallLog) : (c : RecordCall) → Books → c.Answer × Books
  | .now, books => (script.clock log, books)
  | .freshId, books => (script.ids log, books)
  | .insertJob job, books => script.unlessFaulty log books <|
    (books.stores.jobs.insert job).map fun jobs =>
      ((), { books with stores := { books.stores with jobs } })
  | .updateJob job, books => script.unlessFaulty log books <|
    (books.stores.jobs.update job).map fun (written, jobs) =>
      (written, { books with stores := { books.stores with jobs } })
  | .findJob id, books =>
    script.unlessFaulty log books (.ok (books.stores.jobs.find? id, books))
  | .findJobByKey key, books =>
    script.unlessFaulty log books (.ok (books.stores.jobs.findByKey? key, books))
  | .insertPost post, books => script.unlessFaulty log books <|
    (books.stores.posts.insert post).map fun posts =>
      ((), { books with stores := { books.stores with posts } })
  | .findPost job, books =>
    script.unlessFaulty log books (.ok (books.stores.posts.find? job, books))
  | .send envelope, books =>
    script.unlessFaulty log books (.ok ((), { books with sent := books.sent ++ [envelope] }))

/-- Answers a call, which is the last one of these. -/
def answer (log : CallLog) : (c : ServiceCall) → World → c.Answer × World
  | .records c, world =>
    let (answer, books) := script.keep log c world.books
    (answer, { world with books })
  | .getAccount id, world =>
    script.unlessFaulty log world (.ok (world.accounts.find? id, world))
  | .saveAccount account, world => script.unlessFaulty log world <|
    (world.accounts.save account).map fun accounts => ((), { world with accounts })
  | .lease account, world =>
    let (lease, locks) := world.locks.lease account
    (lease, { world with locks })
  | .enter lease, world => ((), { world with locks := world.locks.enter lease })
  | .leave lease, world => ((), { world with locks := world.locks.leave lease })
  | .giveBack lease, world => ((), { world with locks := world.locks.giveBack lease })
  | .sweep account, world => ((), { world with locks := world.locks.sweep account })
  | .renew platform _ _, world => (script.granted log platform, world)
  | .publish publisher context, world =>
    (script.published log publisher context.request, world)

def perform (c : ServiceCall) (world : World) : c.Answer × World :=
  let log := world.log ++ [c.redacted]
  let (answer, later) := script.answer log c world
  (answer, { later with log })

/-- Executes requests one after the other, and tells what came of each. -/
def executeAll (engine : Engine) :
    List Request → World → List (Option (Except PublishError Execution)) × World
  | [], world => ([], world)
  | request :: requests, world =>
    let (outcome, world) := (engine.execute request).run.run script.perform world
    let (outcomes, world) := executeAll engine requests world
    (outcome :: outcomes, world)

/-- The scripts differ at most in the texts of the tokens that are granted. A new refresh token is
granted by both or by none, and is empty in both or in none. -/
structure Alike (script other : Script) : Prop where
  clock : script.clock = other.clock
  ids : script.ids = other.ids
  faults : script.faults = other.faults
  published : script.published = other.published
  granted : ∀ log platform,
    (script.granted log platform).redacted = (other.granted log platform).redacted

end Script

def AccountStore.redacted (store : AccountStore) : AccountStore :=
  { store with rows := store.rows.map Account.redacted }

/-- The worlds differ at most in the tokens of their accounts. The refresh token of an account can
be used in both worlds or in none. -/
structure World.Alike (world other : World) : Prop where
  books : world.books = other.books
  accounts : world.accounts.redacted = other.accounts.redacted
  locks : world.locks = other.locks
  log : world.log = other.log

namespace AccountStore

variable {store other : AccountStore} {account again : Account}

theorem find?_redacted (store : AccountStore) (id : AccountId) :
    store.redacted.find? id = (store.find? id).map Account.redacted := by
  rw [find?, redacted, List.find?_map]
  rfl

theorem has_redacted (store : AccountStore) (id : AccountId) :
    store.redacted.has id = store.has id := by
  rw [has, find?_redacted, Option.isSome_map]
  rfl

/-- Saving and hiding the tokens may be done in any order. -/
theorem save_redacted (store : AccountStore) (account : Account) :
    store.redacted.save account.redacted = (store.save account).map redacted := by
  have replaced : replace account.redacted (store.rows.map Account.redacted) =
      (replace account store.rows).map Account.redacted := by
    rw [replace, replace, List.map_map, List.map_map]
    refine List.map_congr_left fun row _ => ?_
    by_cases here : row.id = account.id <;> simp [here]
  rw [save, save, Account.redacted_id, has_redacted]
  split
  · simp only [redacted, Except.map, replaced]
  · rfl

/-- Stores that look alike save accounts that look alike, or refuse them alike. -/
theorem save_alike (same : store.redacted = other.redacted)
    (sameAccount : account.redacted = again.redacted) :
    Action.Ends (fun later laterToo => later.redacted = laterToo.redacted) (store.save account)
      (other.save again) := by
  have saved : (store.save account).map redacted = (other.save again).map redacted := by
    rw [← save_redacted, same, sameAccount, save_redacted]
  exact Action.ends_iff_map.mpr saved

end AccountStore

namespace Script

open Syndication.Action Program

variable {script other : Script} {world again : World}

theorem unlessFaulty_alike {α β σ τ : Type} (ends : α → β → Prop) {rel : σ → τ → Prop} {s : σ}
    {t : τ} {work : Except ServiceFault (α × σ)} {workToo : Except ServiceFault (β × τ)}
    (faults : script.faults = other.faults) (log : CallLog) (start : rel s t)
    (works : Ends (fun x y => ends x.1 y.1 ∧ rel x.2 y.2) work workToo) :
    Ends ends (script.unlessFaulty log s work).1 (other.unlessFaulty log t workToo).1 ∧
      rel (script.unlessFaulty log s work).2 (other.unlessFaulty log t workToo).2 := by
  unfold unlessFaulty
  rw [faults]
  cases other.faults log with
  | some fault => exact ⟨rfl, start⟩
  | none =>
    match work, workToo, works with
    | .error _, .error _, works => exact ⟨works, start⟩
    | .ok (_, _), .ok (_, _), works => exact works

theorem keep_alike (alike : script.Alike other) (log : CallLog) (c : RecordCall) (books : Books) :
    script.keep log c books = other.keep log c books := by
  have faulty {α : Type} (work : Except ServiceFault (α × Books)) :
      script.unlessFaulty log books work = other.unlessFaulty log books work := by
    unfold unlessFaulty
    rw [alike.faults]
  cases c with
  | now => rw [keep, keep, alike.clock]
  | freshId => rw [keep, keep, alike.ids]
  | _ => simp only [keep, faulty]

/-- Two calls are answered alike, and leave worlds that differ at most in the tokens. -/
def AnswersAlike (script other : Script) (log : CallLog) (world again : World) (c d : ServiceCall) :
    Prop :=
  Services.veil.exchange ⟨c, (script.answer log c world).1⟩ =
      Services.veil.exchange ⟨d, (other.answer log d again).1⟩ ∧
    (script.answer log c world).2.Alike (other.answer log d again).2

theorem getAccount_alike (alike : script.Alike other) (log : CallLog) (same : world.Alike again)
    (id : AccountId) :
    AnswersAlike script other log world again (.getAccount id) (.getAccount id) := by
  let ends (found other : Option Account) : Prop :=
    found.map Account.redacted = other.map Account.redacted
  have found : ends (world.accounts.find? id) (again.accounts.find? id) := by
    have seen := congrArg (AccountStore.find? · id) same.accounts
    simpa only [AccountStore.find?_redacted] using seen
  have reads : Ends (fun x y => ends x.1 y.1 ∧ World.Alike x.2 y.2)
      (.ok (world.accounts.find? id, world) : Except ServiceFault (Option Account × World))
      (.ok (again.accounts.find? id, again)) := ⟨found, same⟩
  obtain ⟨answers, later⟩ := unlessFaulty_alike ends alike.faults log same reads
  exact ⟨congrArg (Sigma.mk _) (ends_iff_map.mp answers), later⟩

theorem saveAccount_alike (alike : script.Alike other) (log : CallLog) (same : world.Alike again)
    {account accountToo : Account} (sameAccount : account.redacted = accountToo.redacted) :
    AnswersAlike script other log world again (.saveAccount account) (.saveAccount accountToo) := by
  have saves : Ends (fun x y : Unit × World => x.1 = y.1 ∧ x.2.Alike y.2)
      ((world.accounts.save account).map fun accounts => ((), { world with accounts }))
      ((again.accounts.save accountToo).map fun accounts => ((), { again with accounts })) := by
    have saved := AccountStore.save_alike same.accounts sameAccount
    match world.accounts.save account, again.accounts.save accountToo, saved with
    | .ok _, .ok _, saved => exact ⟨rfl, same.books, saved, same.locks, same.log⟩
    | .error _, .error _, refused => exact refused
  obtain ⟨answers, later⟩ := unlessFaulty_alike Eq alike.faults log same saves
  have sameExchange := congrArg₂ (fun account answer =>
    (⟨.saveAccount account, answer⟩ : Services.Exchange)) sameAccount answers.eq
  exact ⟨sameExchange, later⟩

theorem plain_alike (alike : script.Alike other) (log : CallLog) (same : world.Alike again)
    {c : ServiceCall} (plain : c.IsPlain) : AnswersAlike script other log world again c c := by
  cases c with
  | records c =>
    simp only [AnswersAlike, answer, keep_alike alike, same.books]
    exact ⟨trivial, rfl, same.accounts, same.locks, same.log⟩
  | lease account =>
    simp only [AnswersAlike, answer, same.locks]
    exact ⟨trivial, same.books, same.accounts, rfl, same.log⟩
  | enter lease =>
    exact ⟨rfl, same.books, same.accounts, congrArg (·.enter lease) same.locks, same.log⟩
  | leave lease =>
    exact ⟨rfl, same.books, same.accounts, congrArg (·.leave lease) same.locks, same.log⟩
  | giveBack lease =>
    exact ⟨rfl, same.books, same.accounts, congrArg (·.giveBack lease) same.locks, same.log⟩
  | sweep account =>
    exact ⟨rfl, same.books, same.accounts, congrArg (·.sweep account) same.locks, same.log⟩
  | getAccount | saveAccount | renew | publish => cases plain

/-- Calls that look alike are answered alike. -/
theorem answer_alike (alike : script.Alike other) (log : CallLog) (same : world.Alike again)
    {c d : ServiceCall} (seen : c.redacted = d.redacted) :
    AnswersAlike script other log world again c d := by
  by_cases plain : c.IsPlain
  · obtain rfl := plain.eq_of_redacted seen
    exact plain_alike alike log same plain
  cases c with
  | getAccount id =>
    cases d with
    | getAccount other =>
      obtain rfl : id = other := ServiceCall.getAccount.inj seen
      exact getAccount_alike alike log same id
    | _ => cases seen
  | saveAccount account =>
    cases d with
    | saveAccount other => exact saveAccount_alike alike log same (ServiceCall.saveAccount.inj seen)
    | _ => cases seen
  | renew platform token limit =>
    cases d with
    | renew platformToo tokenToo limitToo =>
      obtain ⟨rfl, _, rfl⟩ := ServiceCall.renew.inj seen
      exact ⟨congrArg (Sigma.mk _) (alike.granted log platform), same⟩
    | _ => cases seen
  | publish publisher context =>
    cases d with
    | publish publisherToo contextToo =>
      obtain ⟨rfl, sameContext⟩ := ServiceCall.publish.inj seen
      have sameRequest : context.redacted.request = contextToo.redacted.request := by
        rw [sameContext]
      simp only [PublishContext.redacted_request] at sameRequest
      simp only [AnswersAlike, answer, Services.veil, alike.published, sameRequest]
      rw [sameContext]
      exact ⟨rfl, same⟩
    | _ => cases seen
  | _ => exact absurd trivial plain

theorem perform_alike (alike : script.Alike other) {c d : ServiceCall} (same : world.Alike again)
    (seen : c.redacted = d.redacted) :
    Services.veil.exchange ⟨c, (script.perform c world).1⟩ =
        Services.veil.exchange ⟨d, (other.perform d again).1⟩ ∧
      (script.perform c world).2.Alike (other.perform d again).2 := by
  have sameLog : world.log ++ [c.redacted] = again.log ++ [d.redacted] := by
    rw [same.log, seen]
  obtain ⟨answers, later⟩ := answer_alike alike (world.log ++ [c.redacted]) same seen
  simp only [perform, ← sameLog]
  exact ⟨answers, later.books, later.accounts, later.locks, rfl⟩

/-- One execution comes to the same outcome in worlds that differ in the tokens. -/
theorem execute_alike (alike : script.Alike other) (engine : Engine) (request : Request)
    (same : world.Alike again) :
    ((engine.execute request).run.run script.perform world).1 =
        ((engine.execute request).run.run other.perform again).1 ∧
      ((engine.execute request).run.run script.perform world).2.Alike
        ((engine.execute request).run.run other.perform again).2 := by
  have couples := engine.execute_couples request
  obtain ⟨outcomes, later⟩ := couples.run (perform_alike alike) same
  refine ⟨?_, later⟩
  generalize ((engine.execute request).run.run script.perform world).1 = outcome,
    ((engine.execute request).run.run other.perform again).1 = outcomeToo at outcomes
  cases outcomes with
  | some reached => exact congrArg some reached.eq
  | none => rfl

/-- Tokens leave no trace in what is written down. Two worlds may differ in the tokens of their
accounts, and two scripts in the tokens they grant; one account has a refresh token that can be
used exactly if the other has. Any executions then end with the same outcomes and errors, the same
rows of jobs, the same posts and the same sequence of events. -/
theorem secrets_unrecorded (alike : script.Alike other) (same : world.Alike again)
    (engine : Engine) (requests : List Request) :
    (script.executeAll engine requests world).1 = (other.executeAll engine requests again).1 ∧
      (script.executeAll engine requests world).2.books =
        (other.executeAll engine requests again).2.books := by
  induction requests generalizing world again with
  | nil => exact ⟨rfl, same.books⟩
  | cons request requests ih =>
    obtain ⟨outcome, later⟩ := execute_alike alike engine request same
    obtain ⟨outcomes, books⟩ := ih later
    exact ⟨congrArg₂ List.cons outcome outcomes, books⟩

end Script

namespace Rehearsal.Cast

/-- A world with one account, whose access token has expired. -/
def worldWith (access refresh : String) : World :=
  let account := { expired with accessToken := ⟨access⟩, refreshToken := some ⟨refresh⟩ }
  { accounts := { rows := [account] } }

/-- Tokens are granted for a minute, and the platform is out of reach for the first request. -/
def rotating (access refresh : String) : Script where
  clock _ := morning
  ids log := .ofNat (16 + log.length)
  faults _ := none
  published _ _ request :=
    if request.idempotencyKey = some "key-0" then .error (.network "unreachable")
    else .ok (.published "video-1" "https://video.test/1")
  granted _ _ := .answered (.ok ⟨⟨access⟩, 60, some ⟨refresh⟩⟩)

theorem rotating_alike : (rotating "token-2" "refresh-2").Alike (rotating "token-3" "refresh-3") :=
  ⟨rfl, rfl, rfl, rfl, fun _ _ => rfl⟩

theorem worldWith_alike :
    (worldWith "token-0" "refresh-0").Alike (worldWith "token-1" "refresh-1") :=
  ⟨rfl, rfl, rfl, rfl⟩

end Rehearsal.Cast

open Rehearsal in
/-- Two worlds have no token in common, and renew their tokens twice. One job fails and another one
succeeds, and both worlds record the same of it. -/
theorem Script.secrets_unrecorded_renewed : ∃ (script other : Script) (world again : World)
    (requests : List Request), script.Alike other ∧ world.Alike again ∧
    (script.executeAll Cast.engine requests world).2.accounts.rows.map (·.refreshToken) =
      [some ⟨"refresh-2"⟩] ∧
    (other.executeAll Cast.engine requests again).2.accounts.rows.map (·.refreshToken) =
      [some ⟨"refresh-3"⟩] ∧
    (script.executeAll Cast.engine requests world).2.accounts.saves = 2 ∧
    (script.executeAll Cast.engine requests world).2.books.stores.jobs.rows.map (·.status) =
      [.failed, .success] ∧
    (script.executeAll Cast.engine requests world).1 =
      (other.executeAll Cast.engine requests again).1 ∧
    (script.executeAll Cast.engine requests world).2.books =
      (other.executeAll Cast.engine requests again).2.books := by
  have recorded := secrets_unrecorded Cast.rotating_alike Cast.worldWith_alike Cast.engine
    [Cast.keyed "key-0", Cast.request]
  exact ⟨_, _, _, _, _, Cast.rotating_alike, Cast.worldWith_alike, by decide +kernel,
    by decide +kernel, by decide +kernel, by decide +kernel, recorded⟩

end Syndication
