import Syndication.Proofs.Conduct
import Syndication.Token.Renewal

namespace Syndication

/-- Which calls are on the locks. -/
def ServiceCall.OnLocks : ServiceCall → Prop
  | .lease _ | .enter _ | .leave _ | .giveBack _ | .sweep _ => True
  | _ => False

namespace RenewalPolicy

variable (policy : RenewalPolicy)

/-- What is left when the work inside the lock has come to its outcome. -/
def cleanUp (id : AccountId) (lease : Lease) (outcome : Except PublishError Secret) :
    Program Services (Except PublishError Secret) :=
  .call (.leave lease) fun _ => .call (.giveBack lease) fun _ => .call (.sweep id) fun _ =>
    .done outcome

theorem insideLock_run (id : AccountId) (work : Action Services Secret) :
    (insideLock id work).run = .call (.lease id) fun lease => .call (.enter lease) fun _ =>
      work.run.bind (cleanUp id lease) := rfl

/-- A choice by whether the token of an account needs a renewal. -/
theorem needsRenewal_run {α : Type} (account : Account) (now : Timestamp)
    (renews keeps : Action Services α) :
    (Action.always (policy.needsRenewal account now) >>= fun needs =>
      if needs then renews else keeps).run = match account.needsRefresh? policy.buffer now with
      | none => .overflow
      | some true => renews.run
      | some false => keeps.run := by
  unfold needsRenewal
  rcases account.needsRefresh? policy.buffer now with _ | _ | _ <;> rfl

theorem validToken_run (account : Account) : (policy.validToken account).run =
    .call (.records .now) fun now => match account.needsRefresh? policy.buffer now with
      | none => .overflow
      | some true => (insideLock account.id (policy.validTokenInside account.id)).run
      | some false => .done (.ok account.accessToken) := by
  refine congrArg (Program.call (I := Services) (.records .now)) (funext fun now => ?_)
  exact policy.needsRenewal_run account now _ _

/-- Saves an account that was renewed, and hands out its token. -/
def saveRenewed (renewed : Account) : Action Services Secret := do
  .persisted (Services.saveAccount renewed)
  return renewed.accessToken

theorem saveRenewed_run (renewed : Account) : (saveRenewed renewed).run =
    .call (.saveAccount renewed) fun
      | .ok () => .done (.ok renewed.accessToken)
      | .error fault => .done (.error (.persistence fault)) :=
  congrArg (Program.call (I := Services) (.saveAccount renewed))
    (funext fun answer => by cases answer <;> rfl)

/-- Stores what was granted for an account. -/
def storeGrant (account : Account) (now : Timestamp) (grant : TokenGrant) :
    Action Services Secret := do
  let renewed ← .always (.ofCalendar (account.applyGrant? grant now))
  saveRenewed renewed

theorem storeGrant_run (account : Account) (now : Timestamp) (grant : TokenGrant) :
    (storeGrant account now grant).run = match account.applyGrant? grant now with
      | none => .overflow
      | some renewed => (saveRenewed renewed).run := by
  unfold storeGrant
  cases account.applyGrant? grant now <;> rfl

/-- Asks the endpoint for a new token of an account, and stores what is granted. -/
def renewWith (id : AccountId) (account : Account) (now : Timestamp) (token : Secret) :
    Action Services Secret := do
  let grant ← policy.askEndpoint id account.platform token
  storeGrant account now grant

theorem renewWith_run (id : AccountId) (account : Account) (now : Timestamp) (token : Secret) :
    (policy.renewWith id account now token).run =
      .call (.renew account.platform token policy.limit) fun
        | .answered (.ok grant) => (storeGrant account now grant).run
        | .answered (.error error) => .done (.error (refused id error))
        | .timedOut => .done (.error (refused id (.timeout (policy.limit / 1000)))) :=
  congrArg (Program.call (I := Services) (.renew account.platform token policy.limit))
    (funext fun reply => by rcases reply with (_ | _) | _ <;> rfl)

/-- Renews the token of an account that was read, if it needs it. -/
def validTokenOf (id : AccountId) (account : Account) : Action Services Secret := do
  let now ← .always Services.now
  if ← .always (policy.needsRenewal account now) then policy.renewStored id account now
  else return account.accessToken

theorem validTokenOf_run (id : AccountId) (account : Account) :
    (policy.validTokenOf id account).run =
      .call (.records .now) fun now => match account.needsRefresh? policy.buffer now with
        | none => .overflow
        | some true => match account.usableRefreshToken? with
          | none => .done (.error (.missingRefreshToken id))
          | some token => (policy.renewWith id account now token).run
        | some false => .done (.ok account.accessToken) := by
  refine congrArg (Program.call (I := Services) (.records .now)) (funext fun now => ?_)
  refine (policy.needsRenewal_run account now _ _).trans ?_
  rcases account.needsRefresh? policy.buffer now with _ | _ | _
  · rfl
  · rfl
  · simp only [renewStored]
    cases account.usableRefreshToken? <;> rfl

theorem validTokenInside_run (id : AccountId) : (policy.validTokenInside id).run =
    .call (.getAccount id) fun
      | .ok (some account) => (policy.validTokenOf id account).run
      | .ok none => .done (.error (.accountNotFound id))
      | .error fault => .done (.error (.persistence fault)) :=
  congrArg (Program.call (I := Services) (.getAccount id))
    (funext fun answer => by rcases answer with _ | _ | _ <;> rfl)

/-- What may be left of the work inside a lock. The accounts in it are such as `fit`. -/
inductive Working (id : AccountId) (fit : Account → Prop) :
    Program Services (Except PublishError Secret) → Prop
  | reading : Working id fit (policy.validTokenInside id).run
  | read {account : Account} : fit account → Working id fit (policy.validTokenOf id account).run
  | renewing {account : Account} (now : Timestamp) (token : Secret) : fit account →
      Working id fit (policy.renewWith id account now token).run
  | saving {renewed : Account} : fit renewed → Working id fit (saveRenewed renewed).run
  | done (outcome : Except PublishError Secret) : Working id fit (.done outcome)
  | overflow : Working id fit .overflow

namespace Working

variable {policy} {id : AccountId} {fit : Account → Prop} {c : ServiceCall}
  {next : c.Answer → Program Services (Except PublishError Secret)}

theorem elsewhere (working : policy.Working id fit (.call c next)) : ¬ c.OnLocks := by
  generalize whole : Program.call (I := Services) c next = rest at working
  intro onLocks
  cases working with
  | reading =>
    rw [validTokenInside_run] at whole
    cases whole
    exact onLocks
  | read =>
    rw [validTokenOf_run] at whole
    cases whole
    exact onLocks
  | renewing =>
    rw [renewWith_run] at whole
    cases whole
    exact onLocks
  | saving =>
    rw [saveRenewed_run] at whole
    cases whole
    exact onLocks
  | done | overflow => cases whole

/-- The work goes on as it may when a call is answered, if accounts that are read fit. -/
theorem answer {answer : c.Answer} (working : policy.Working id fit (.call c next))
    (reads : ∀ account, (⟨c, answer⟩ : Services.Exchange) = ⟨.getAccount id, .ok (some account)⟩ →
      fit account)
    (renews : ∀ account grant now renewed, fit account →
      account.applyGrant? grant now = some renewed → fit renewed) :
    policy.Working id fit (next answer) := by
  generalize whole : Program.call (I := Services) c next = rest at working
  cases working with
  | reading =>
    rw [validTokenInside_run] at whole
    cases whole
    match answer with
    | .ok (some account) => exact .read (reads account rfl)
    | .ok none => exact .done _
    | .error fault => exact .done _
  | read fits =>
    rw [validTokenOf_run] at whole
    cases whole
    dsimp only
    split
    · exact .overflow
    · split
      · exact .done _
      · exact .renewing _ _ fits
    · exact .done _
  | renewing now token fits =>
    rw [renewWith_run] at whole
    cases whole
    match answer with
    | .answered (.ok grant) =>
      simp only [storeGrant_run]
      split
      · exact .overflow
      · rename_i granted
        exact .saving (renews _ _ _ _ fits granted)
    | .answered (.error error) => exact .done _
    | .timedOut => exact .done _
  | saving fits =>
    rw [saveRenewed_run] at whole
    cases whole
    match answer with
    | .ok () => exact .done _
    | .error fault => exact .done _
  | done | overflow => cases whole

/-- What is saved is an account that was renewed, and its token is handed out then. -/
theorem of_save {renewed : Account}
    {work : Except ServiceFault Unit → Program Services (Except PublishError Secret)}
    (working : policy.Working id fit (.call (.saveAccount renewed) work)) :
    fit renewed ∧ work (.ok ()) = .done (.ok renewed.accessToken) := by
  generalize whole : Program.call (I := Services) (.saveAccount renewed) work = rest at working
  cases working with
  | reading =>
    rw [validTokenInside_run] at whole
    cases whole
  | read =>
    rw [validTokenOf_run] at whole
    cases whole
  | renewing =>
    rw [renewWith_run] at whole
    cases whole
  | saving fits =>
    rw [saveRenewed_run] at whole
    cases whole
    exact ⟨fits, rfl⟩
  | done | overflow => cases whole

end Working

section Saved

variable {policy : RenewalPolicy} {account renewed : Account} {log : List Services.Exchange}
  {next : Except ServiceFault Unit → Program Services (Except PublishError Secret)}

theorem storeGrant_saves {now : Timestamp} {grant : TokenGrant}
    (follows : (storeGrant account now grant).run.Follows log
      (.call (.saveAccount renewed) next)) :
    log = [] ∧ account.applyGrant? grant now = some renewed := by
  rw [storeGrant_run] at follows
  split at follows
  · cases follows
  · rename_i granted
    rw [saveRenewed_run] at follows
    cases follows with
    | stop => exact ⟨rfl, granted⟩
    | @call _ _ answer _ _ follows =>
      match answer with
      | .ok () => cases follows
      | .error fault => cases follows

theorem renewWith_saves {id : AccountId} {now : Timestamp} {token : Secret}
    (follows : (policy.renewWith id account now token).run.Follows log
      (.call (.saveAccount renewed) next)) :
    ∃ grant, log = [⟨.renew account.platform token policy.limit, .answered (.ok grant)⟩] ∧
      account.applyGrant? grant now = some renewed := by
  rw [renewWith_run] at follows
  cases follows with
  | @call _ _ answer _ _ follows =>
    match answer with
    | .answered (.ok grant) =>
      obtain ⟨rfl, granted⟩ := storeGrant_saves follows
      exact ⟨grant, rfl, granted⟩
    | .answered (.error error) => cases follows
    | .timedOut => cases follows

theorem validTokenOf_saves {id : AccountId}
    (follows : (policy.validTokenOf id account).run.Follows log
      (.call (.saveAccount renewed) next)) :
    ∃ now token grant, log = [⟨.records .now, now⟩,
        ⟨.renew account.platform token policy.limit, .answered (.ok grant)⟩] ∧
      account.applyGrant? grant now = some renewed := by
  rw [validTokenOf_run] at follows
  cases follows with
  | @call _ _ now _ _ follows =>
    dsimp only at follows
    split at follows
    · cases follows
    · split at follows
      · cases follows
      · obtain ⟨grant, rfl, granted⟩ := renewWith_saves follows
        exact ⟨now, _, grant, rfl, granted⟩
    · cases follows

theorem validTokenInside_saves {id : AccountId}
    (follows : (policy.validTokenInside id).run.Follows log (.call (.saveAccount renewed) next)) :
    ∃ account now token grant, log = [⟨.getAccount id, .ok (some account)⟩, ⟨.records .now, now⟩,
        ⟨.renew account.platform token policy.limit, .answered (.ok grant)⟩] ∧
      account.applyGrant? grant now = some renewed := by
  rw [validTokenInside_run] at follows
  cases follows with
  | @call _ _ answer _ _ follows =>
    match answer with
    | .ok (some account) =>
      obtain ⟨now, token, grant, rfl, granted⟩ := validTokenOf_saves follows
      exact ⟨account, now, token, grant, rfl, granted⟩
    | .ok none => cases follows
    | .error fault => cases follows

/-- Nothing is saved while the lock is given up. -/
theorem cleanUp_saves {id : AccountId} {lease : Lease} {outcome : Except PublishError Secret} :
    ¬ (cleanUp id lease outcome).Follows log (.call (.saveAccount renewed) next) := by
  intro follows
  cases follows with
  | call follows =>
    cases follows with
    | call follows =>
      cases follows with
      | call follows => cases follows

/-- An account is saved after the stored one was read and the endpoint granted a token for it. -/
theorem validToken_saves {copy : Account}
    (follows : (policy.validToken copy).run.Follows log (.call (.saveAccount renewed) next)) :
    ∃ time lease account now token grant,
      log = [⟨.records .now, time⟩, ⟨.lease copy.id, lease⟩, ⟨.enter lease, ()⟩,
        ⟨.getAccount copy.id, .ok (some account)⟩, ⟨.records .now, now⟩,
        ⟨.renew account.platform token policy.limit, .answered (.ok grant)⟩] ∧
      account.applyGrant? grant now = some renewed := by
  rw [validToken_run] at follows
  cases follows with
  | @call _ _ time _ _ follows =>
    dsimp only at follows
    split at follows
    · cases follows
    · rw [insideLock_run] at follows
      cases follows with
      | @call _ _ lease _ _ follows =>
        cases follows with
        | call follows =>
          rcases follows.of_bind with ⟨p, working, same⟩ | ⟨_, _, _, _, _, cleaning⟩
          · cases p with
            | call c work =>
              cases same
              obtain ⟨account, now, token, grant, rfl, granted⟩ := validTokenInside_saves working
              exact ⟨time, lease, account, now, token, grant, rfl, granted⟩
            | done => cases same
            | overflow => cases same
          · exact absurd cleaning cleanUp_saves
    · cases follows

end Saved

end RenewalPolicy

end Syndication
