import Syndication.Services

namespace Syndication

/-- When tokens are renewed, and how long an endpoint may take. -/
structure RenewalPolicy where
  /-- Seconds before its expiry from which on a token is renewed. -/
  buffer : Int
  /-- Time limit of one renewal in milliseconds. -/
  limit : Nat
deriving DecidableEq, Repr

namespace RenewalPolicy

/-- Seconds before expiry at which a token is renewed unless configured otherwise. -/
def defaultBuffer : UInt64 := 300

/-- Time limit of a renewal in seconds unless configured otherwise. -/
def defaultLimit : UInt64 := 15

/-- The policy with a buffer in seconds and a limit in milliseconds. The buffer has to be a length
of time; counts of 64 bits beyond half of their range wrap around to negative ones. -/
def of? (buffer : UInt64) (limit : Nat) : Option RenewalPolicy :=
  (lapse? buffer.toInt64.toInt).map fun buffer => ⟨buffer, limit⟩

/-- Whether the account's token has to be renewed at this time. -/
def needsRenewal (policy : RenewalPolicy) (account : Account) (now : Timestamp) :
    Program Services Bool :=
  .ofCalendar (account.needsRefresh? policy.buffer now)

def refused (account : AccountId) (error : TokenError) : PublishError :=
  .refreshFailed account error.kind error.message

/-- What the endpoint granted for an account. -/
def askEndpoint (policy : RenewalPolicy) (id : AccountId) (platform : Platform) (token : Secret) :
    Action Services TokenGrant := do
  match ← .always (Services.renew platform token policy.limit) with
  | .answered (.ok grant) => return grant
  | .answered (.error error) => throw (refused id error)
  | .timedOut => throw (refused id (.timeout (policy.limit / 1000)))

/-- Renews the token of an account read at `now`, and stores it. -/
def renewStored (policy : RenewalPolicy) (id : AccountId) (account : Account) (now : Timestamp) :
    Action Services Secret := do
  match account.usableRefreshToken? with
  | none => throw (.missingRefreshToken id)
  | some token =>
    let grant ← policy.askEndpoint id account.platform token
    let renewed ← .always (.ofCalendar (account.applyGrant? grant now))
    .persisted (Services.saveAccount renewed)
    return renewed.accessToken

/-- The token of a stored account, renewed if it needs it. This is done inside the account's lock,
so that callers who waited find the token that another one renewed. -/
def validTokenInside (policy : RenewalPolicy) (id : AccountId) : Action Services Secret := do
  match ← .persisted (Services.getAccount id) with
  | none => throw (.accountNotFound id)
  | some account =>
    let now ← .always Services.now
    if ← .always (policy.needsRenewal account now) then policy.renewStored id account now
    else return account.accessToken

/-- Does work inside the lock of an account, and cleans up whatever comes of it. -/
def insideLock {α : Type} (id : AccountId) (work : Action Services α) : Action Services α :=
  ExceptT.mk do
    let lease ← Services.lease id
    Services.enter lease
    let outcome ← work.run
    Services.leave lease
    Services.giveBack lease
    Services.sweep id
    return outcome

/-- A token for an account that outlives the buffer. -/
def validToken (policy : RenewalPolicy) (account : Account) : Action Services Secret := do
  let now ← .always Services.now
  if ← .always (policy.needsRenewal account now) then
    insideLock account.id (policy.validTokenInside account.id)
  else return account.accessToken

end RenewalPolicy

end Syndication
