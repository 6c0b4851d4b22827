import Syndication.Settings.Database
import Syndication.Settings.Engine
import Syndication.Settings.Environment
import Syndication.Settings.Media
import Syndication.Settings.OAuth
import Syndication.Settings.Platforms
import Syndication.Settings.Redis
import Syndication.Settings.Worker

namespace Syndication

structure AppSettings where
  worker : WorkerSettings
  database : DatabaseSettings
  redis : RedisSettings
  engine : EngineSettings
  platforms : PlatformsSettings
  oauth : OAuthSettings
  media : MediaSettings
deriving DecidableEq, Repr

namespace AppSettings

def ofJson? (spelling : Spelling) (json : Json) : Option AppSettings := do
  let record ← spelling.record?
    ["worker", "database", "redis", "engine", "platforms", "oauth", "media"] json
  return {
    worker := ← record.defaulted "worker" {} (WorkerSettings.ofJson? spelling)
    database := ← record.required "database" (DatabaseSettings.ofJson? spelling)
    redis := ← record.required "redis" (RedisSettings.ofJson? spelling)
    engine := ← record.defaulted "engine" {} (EngineSettings.ofJson? spelling)
    platforms := ← record.defaulted "platforms" {} (PlatformsSettings.ofJson? spelling)
    oauth := ← record.defaulted "oauth" {} (OAuthSettings.ofJson? spelling)
    media := ← record.defaulted "media" {} (MediaSettings.ofJson? spelling) }

/-- Checks the sections in their order. In production all token endpoints have to be secured. -/
def validate (settings : AppSettings) : Except SettingsFault Unit := do
  settings.worker.validate
  settings.database.validate
  settings.redis.validate
  settings.engine.validate
  settings.platforms.validate
  settings.oauth.validate settings.worker.isProduction
  settings.media.validate

/-- The settings that the variables of the environment stand for. -/
def ofEnvironment (environment : List (String × String)) :
    Except EnvironmentFault AppSettings := do
  match ofJson? .lenient (← Environment.tree environment) with
  | some settings => return settings
  | none => throw .unreadable

def toJson (settings : AppSettings) : Json :=
  .obj
    [("worker", settings.worker.toJson), ("database", settings.database.toJson),
      ("redis", settings.redis.toJson), ("engine", settings.engine.toJson),
      ("platforms", settings.platforms.toJson), ("oauth", settings.oauth.toJson),
      ("media", settings.media.toJson), ("is_production", .bool settings.worker.isProduction)]

end AppSettings

end Syndication
