import Syndication.Id
import Syndication.Platform
import Syndication.Time.Timestamp

namespace Syndication

/-- A text that goes to its platform and into no record or message. -/
structure Secret where
  expose : String
deriving DecidableEq, Repr

/-- The credentials that a user stored for one platform. -/
structure Account where
  id : AccountId
  userId : UserId
  platform : Platform
  /-- Who the platform takes the poster to be. -/
  externalId : String
  displayName : Option String
  accessToken : Secret
  refreshToken : Option Secret
  /-- None when the expiry is not known; the token counts as expired then. -/
  expiresAt : Option Timestamp
  createdAt : Timestamp
  updatedAt : Timestamp
deriving DecidableEq, Repr

/-- What a token endpoint grants for a refresh token. -/
structure TokenGrant where
  accessToken : Secret
  expiresIn : UInt64
  /-- The refresh token to use from now on, if it changes. -/
  refreshToken : Option Secret
deriving DecidableEq, Repr

/-- The longest lifetime that a token is given: 366 days. -/
def maxTokenLifetime : UInt64 := 31622400

namespace Account

/-- Whether the access token has to be renewed: it expires by `now + buffer`, or its expiry is not
known. There is no answer when `now + buffer` lies outside the calendar. -/
def needsRefresh? (account : Account) (buffer : Int) (now : Timestamp) : Option Bool :=
  match account.expiresAt with
  | none => some true
  | some expiry => (now.plusSeconds? buffer).map fun horizon => !expiry.after horizon

/-- The refresh token, unless it is missing or empty. -/
def usableRefreshToken? (account : Account) : Option Secret :=
  account.refreshToken.filter fun token => !token.expose.isEmpty

def hasRefreshToken (account : Account) : Bool := account.usableRefreshToken?.isSome

/-- The account after a renewal at `now`. None when the expiry lies outside the calendar. -/
def applyGrant? (account : Account) (grant : TokenGrant) (now : Timestamp) : Option Account :=
  (now.plusSeconds? (min grant.expiresIn maxTokenLifetime).toNat).map fun expiry =>
    { account with
      accessToken := grant.accessToken
      expiresAt := some expiry
      refreshToken := grant.refreshToken.or account.refreshToken
      updatedAt := now }

end Account

end Syndication
