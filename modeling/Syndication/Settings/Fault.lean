import Syndication.Text.Search

namespace Syndication

inductive SettingsFault where
  | missingRequired (name : String)
  | invalidTimeout (of : String)
  | invalidDatabaseUrl
  | invalidRedisUrl
  | invalidPoolSize
  | poolSizeTooLarge
  | invalidConcurrency
  | maxRetriesTooLarge
  | invalidUrl (name : String)
  | mustBeHttps (name : String)
deriving DecidableEq, Repr

namespace SettingsFault

/-- The name of the cause. -/
def name : SettingsFault → String
  | .missingRequired _ => "MissingRequired"
  | .invalidTimeout _ => "InvalidTimeout"
  | .invalidDatabaseUrl => "InvalidDatabaseUrl"
  | .invalidRedisUrl => "InvalidRedisUrl"
  | .invalidPoolSize => "InvalidPoolSize"
  | .poolSizeTooLarge => "PoolSizeTooLarge"
  | .invalidConcurrency => "InvalidConcurrency"
  | .maxRetriesTooLarge => "MaxRetriesTooLarge"
  | .invalidUrl _ => "InvalidUrl"
  | .mustBeHttps _ => "MustBeHttps"

def message : SettingsFault → String
  | .missingRequired name => s!"Required configuration missing: {name}"
  | .invalidTimeout of => s!"Invalid timeout for {of}"
  | .invalidDatabaseUrl => "Invalid database URL format"
  | .invalidRedisUrl => "Invalid Redis URL format"
  | .invalidPoolSize => "Pool min_connections exceeds max_connections"
  | .poolSizeTooLarge => "Pool size exceeds maximum allowed (100)"
  | .invalidConcurrency => "Worker concurrency must be between 1 and 256"
  | .maxRetriesTooLarge => "Default max retries exceeds maximum allowed (10)"
  | .invalidUrl name => s!"Invalid URL for {name}: must start with http:// or https://"
  | .mustBeHttps name => s!"{name} must use HTTPS in production"

end SettingsFault

/-- Refuses settings for which a condition holds. -/
def refuseIf (bad : Bool) (fault : SettingsFault) : Except SettingsFault Unit :=
  if bad then .error fault else .ok ()

/-- Refuses an address that is empty or neither plain nor secured web. -/
def checkUrl (name url : String) : Except SettingsFault Unit := do
  refuseIf url.isEmpty (.missingRequired name)
  refuseIf (!Text.startsWith "http://" url && !Text.startsWith "https://" url) (.invalidUrl name)

end Syndication
