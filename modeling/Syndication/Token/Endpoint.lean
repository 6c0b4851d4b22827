import Syndication.Fault.Token
import Syndication.Publisher.Work

namespace Syndication

/-- A registration with the token endpoint of a platform. -/
structure OAuthClient where
  tokenUrl : String
  clientId : String
  clientSecret : Secret
deriving DecidableEq, Repr

/-- The registrations, the latest of each platform first. -/
structure TokenEndpoints where
  clients : List (Platform × OAuthClient) := []

namespace TokenEndpoints

/-- Registers a client, in the place of an earlier one of the platform. -/
def register (endpoints : TokenEndpoints) (platform : Platform) (client : OAuthClient) :
    TokenEndpoints :=
  ⟨(platform, client) :: endpoints.clients.filter (·.1 != platform)⟩

def client? (endpoints : TokenEndpoints) (platform : Platform) : Option OAuthClient :=
  endpoints.clients.lookup platform

/-- The lifetime of a token in seconds when the endpoint tells none. -/
def defaultLifetime : UInt64 := 3600

def form (client : OAuthClient) (token : Secret) : List (String × String) :=
  [("grant_type", "refresh_token"), ("refresh_token", token.expose),
    ("client_id", client.clientId), ("client_secret", client.clientSecret.expose)]

def request (client : OAuthClient) (token : Secret) : Http.Request :=
  (Http.Request.post client.tokenUrl).withForm (form client token)

/-- What a status other than success means. -/
def refusal (status : Nat) (body : String) : TokenError :=
  if status = 429 then .rateLimited body
  else if 400 ≤ status ∧ status ≤ 499 then .rejected status body
  else .unavailable status body

def grantOfJson? (json : Json) : Option TokenGrant := do
  let record ← Record.ofJson? ["access_token", "expires_in", "refresh_token"] json
  return {
    accessToken := ⟨← record.required "access_token" Json.str?⟩
    expiresIn := (← record.defaultedOptional "expires_in" Json.long?).getD defaultLifetime
    refreshToken := (← record.defaultedOptional "refresh_token" Json.str?).map .mk }

/-- What a reply grants. -/
def grantOf (reply : Http.Reply) : Except TokenError TokenGrant :=
  if reply.isSuccess then
    match reply.json?.bind grantOfJson? with
    | some grant => .ok grant
    | none => .error (.malformedResponse Http.unreadable)
  else .error (refusal reply.status reply.text)

def unreachable : Http.SendFault → TokenError
  | .unreachable detail | .timedOut detail => .network detail

/-- Asks the endpoint of a platform for a new access token. -/
def renew (endpoints : TokenEndpoints) (platform : Platform) (token : Secret) :
    Program Web (Except TokenError TokenGrant) :=
  match endpoints.client? platform with
  | none => .done (.error (.notConfigured platform))
  | some client => (Program.ask (I := Web) (.send (request client token))).bind fun
    | .ok reply => .done (grantOf reply)
    | .error fault => .done (.error (unreachable fault))

end TokenEndpoints

end Syndication
