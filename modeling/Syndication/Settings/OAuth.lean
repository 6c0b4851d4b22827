import Syndication.Settings.Fault
import Syndication.Settings.Spelling
import Syndication.Text.Blank
import Syndication.Token.Endpoint

namespace Syndication

/-- A registration. Without an address the platform's public endpoint is meant. -/
structure OAuthClientSettings where
  tokenUrl : Option String
  clientId : String
  clientSecret : Secret
deriving DecidableEq, Repr

structure OAuthSettings where
  youtube : Option OAuthClientSettings := none
  linkedin : Option OAuthClientSettings := none
  instagram : Option OAuthClientSettings := none
  facebook : Option OAuthClientSettings := none
deriving DecidableEq, Repr

namespace OAuthClientSettings

/-- The public endpoint of a platform. -/
def publicTokenUrl : Platform → String
  | .youtube => "https://oauth2.googleapis.com/token"
  | .linkedin => "https://www.linkedin.com/oauth/v2/accessToken"
  | .instagram | .facebook => "https://graph.facebook.com/v19.0/oauth/access_token"

def ofJson? (spelling : Spelling) (json : Json) : Option OAuthClientSettings := do
  let record ← spelling.record? ["token_url", "client_id", "client_secret"] json
  return {
    tokenUrl := ← record.optional "token_url" spelling.text?
    clientId := ← record.required "client_id" spelling.text?
    clientSecret := ⟨← record.required "client_secret" spelling.text?⟩ }

/-- The registration with the address that counts. -/
def client (settings : OAuthClientSettings) (platform : Platform) : OAuthClient :=
  ⟨settings.tokenUrl.getD (publicTokenUrl platform), settings.clientId, settings.clientSecret⟩

end OAuthClientSettings

namespace OAuthSettings

def of? (settings : OAuthSettings) : Platform → Option OAuthClientSettings
  | .youtube => settings.youtube
  | .linkedin => settings.linkedin
  | .instagram => settings.instagram
  | .facebook => settings.facebook

/-- The registrations in the order in which platforms are listed. -/
def configured (settings : OAuthSettings) : List (Platform × OAuthClient) :=
  Platform.all.filterMap fun platform =>
    (settings.of? platform).map fun client => (platform, client.client platform)

def ofJson? (spelling : Spelling) (json : Json) : Option OAuthSettings := do
  let record ← spelling.record? ["youtube", "linkedin", "instagram", "facebook"] json
  let client (name : String) := record.optional name (OAuthClientSettings.ofJson? spelling)
  return {
    youtube := ← client "youtube"
    linkedin := ← client "linkedin"
    instagram := ← client "instagram"
    facebook := ← client "facebook" }

def validateClient (requireHttps : Bool) (platform : Platform) (client : OAuthClient) :
    Except SettingsFault Unit := do
  refuseIf (Text.isBlankText client.clientId)
    (.missingRequired s!"OAUTH__{platform.name}__CLIENT_ID")
  checkUrl "OAUTH token_url" client.tokenUrl
  refuseIf (requireHttps && !Text.startsWith "https://" client.tokenUrl)
    (.mustBeHttps "OAuth token URL")

def validate (settings : OAuthSettings) (requireHttps : Bool) : Except SettingsFault Unit :=
  settings.configured.forM fun (platform, client) => validateClient requireHttps platform client

def clientJson (platform : Platform) (client : OAuthClient) : Json :=
  .obj
    [("platform", platform.toJson), ("client_id", .str client.clientId),
      ("client_secret", .str client.clientSecret.expose), ("token_url", .str client.tokenUrl)]

/-- The registrations with the addresses that count. -/
def toJson (settings : OAuthSettings) : Json :=
  .arr (settings.configured.map fun (platform, client) => clientJson platform client)

end OAuthSettings

end Syndication
