import Syndication.Fault.Platform
import Syndication.Services

namespace Syndication.Rehearsal

/-- What an endpoint grants in one turn; without a token it grants a fresh one. -/
structure GrantTurn where
  accessToken : Option String := none
  expiresIn : UInt64 := 3600
  refreshToken : Option String := none

structure TokenTurn where
  outcome : Except TokenError GrantTurn := .ok {}
  /-- How long the answer takes, in milliseconds. -/
  delay : Nat := 0

structure TokenCall where
  platform : Platform
  token : Secret

/-- Another delivery of the same request, which ends the job first. -/
inductive Rival where
  | succeeds (result : PublishResult)
  | fails (message : String)

structure PublishTurn where
  rival : Option Rival := none
  outcome : Option (Except PlatformError PublishResult) := none

structure PublishRecord where
  platform : Platform
  context : PublishContext

/-- What the call with this number is granted. -/
def GrantTurn.grant (turn : GrantTurn) (number : Nat) : TokenGrant where
  accessToken := ⟨turn.accessToken.getD s!"fresh-{number}"⟩
  expiresIn := turn.expiresIn
  refreshToken := turn.refreshToken.map .mk

/-- The plain success of a platform's call with this number. -/
def plainSuccess (platform : Platform) (number : Nat) : PublishResult :=
  let name := Text.lower platform.name
  .published s!"{name}-{number}" s!"https://{name}.test/{number}"

/-- The next turn of a platform, and the turns without it. -/
def takeTurn (platform : Platform) :
    List (Platform × PublishTurn) → PublishTurn × List (Platform × PublishTurn)
  | [] => ({}, [])
  | (p, turn) :: rest =>
    if p = platform then (turn, rest)
    else
      let (found, left) := takeTurn platform rest
      (found, (p, turn) :: left)

end Syndication.Rehearsal
