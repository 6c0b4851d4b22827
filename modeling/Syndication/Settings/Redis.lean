import Syndication.Settings.Fault
import Syndication.Settings.Spelling

namespace Syndication

structure RedisSettings where
  url : String := ""
deriving DecidableEq, Repr

namespace RedisSettings

def ofJson? (spelling : Spelling) (json : Json) : Option RedisSettings := do
  let record ← spelling.record? ["url"] json
  return { url := ← record.required "url" spelling.text? }

def validate (settings : RedisSettings) : Except SettingsFault Unit := do
  refuseIf settings.url.isEmpty (.missingRequired "REDIS__URL")
  refuseIf
    (!Text.startsWith "redis://" settings.url && !Text.startsWith "rediss://" settings.url)
    .invalidRedisUrl

def toJson (settings : RedisSettings) : Json := .obj [("url", .str settings.url)]

end RedisSettings

end Syndication
