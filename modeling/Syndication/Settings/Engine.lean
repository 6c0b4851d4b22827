import Syndication.Job.Basic
import Syndication.Settings.Fault
import Syndication.Settings.Spelling
import Syndication.Token.Renewal

namespace Syndication

structure EngineSettings where
  /-- The retry budget of requests that set none. -/
  maxRetries : UInt32 := Job.defaultMaxRetries
  /-- Seconds before its expiry from which on a token is renewed. -/
  refreshBuffer : UInt64 := RenewalPolicy.defaultBuffer
  /-- Time limit of one renewal in seconds. -/
  refreshTimeout : UInt64 := RenewalPolicy.defaultLimit
deriving DecidableEq, Repr

namespace EngineSettings

def ofJson? (spelling : Spelling) (json : Json) : Option EngineSettings := do
  let record ← spelling.record?
    ["default_max_retries", "refresh_buffer_secs", "refresh_timeout_secs"] json
  let default : EngineSettings := {}
  return {
    maxRetries := ← record.defaulted "default_max_retries" default.maxRetries spelling.count32?
    refreshBuffer :=
      ← record.defaulted "refresh_buffer_secs" default.refreshBuffer spelling.count64?
    refreshTimeout :=
      ← record.defaulted "refresh_timeout_secs" default.refreshTimeout spelling.count64? }

def validate (settings : EngineSettings) : Except SettingsFault Unit := do
  refuseIf (settings.maxRetries > 10) .maxRetriesTooLarge
  refuseIf (settings.refreshTimeout == 0 || settings.refreshTimeout > 120)
    (.invalidTimeout "token refresh")

/-- The policy that these settings stand for. -/
def renewal? (settings : EngineSettings) : Option RenewalPolicy :=
  RenewalPolicy.of? settings.refreshBuffer (settings.refreshTimeout.toNat * 1000)

def toJson (settings : EngineSettings) : Json :=
  .obj
    [("default_max_retries", .ofNat settings.maxRetries.toNat),
      ("refresh_buffer_secs", .ofNat settings.refreshBuffer.toNat),
      ("refresh_timeout_secs", .ofNat settings.refreshTimeout.toNat)]

end EngineSettings

end Syndication
