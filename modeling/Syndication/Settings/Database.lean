import Syndication.Settings.Fault
import Syndication.Settings.Spelling

namespace Syndication

structure DatabaseSettings where
  url : String := ""
  minConnections : UInt32 := 2
  maxConnections : UInt32 := 20
  acquireTimeout : UInt64 := 10
  runMigrations : Bool := false
deriving DecidableEq, Repr

namespace DatabaseSettings

def ofJson? (spelling : Spelling) (json : Json) : Option DatabaseSettings := do
  let record ← spelling.record?
    ["url", "min_connections", "max_connections", "acquire_timeout_secs", "run_migrations"] json
  let default : DatabaseSettings := {}
  return {
    url := ← record.required "url" spelling.text?
    minConnections :=
      ← record.defaulted "min_connections" default.minConnections spelling.count32?
    maxConnections :=
      ← record.defaulted "max_connections" default.maxConnections spelling.count32?
    acquireTimeout :=
      ← record.defaulted "acquire_timeout_secs" default.acquireTimeout spelling.count64?
    runMigrations := ← record.defaulted "run_migrations" default.runMigrations spelling.truth? }

def validate (settings : DatabaseSettings) : Except SettingsFault Unit := do
  refuseIf settings.url.isEmpty (.missingRequired "DATABASE__URL")
  refuseIf
    (!Text.startsWith "postgres://" settings.url && !Text.startsWith "postgresql://" settings.url)
    .invalidDatabaseUrl
  refuseIf (settings.minConnections > settings.maxConnections) .invalidPoolSize
  refuseIf (settings.maxConnections > 100) .poolSizeTooLarge
  refuseIf (settings.acquireTimeout == 0) (.invalidTimeout "database acquire")

def toJson (settings : DatabaseSettings) : Json :=
  .obj
    [("url", .str settings.url), ("min_connections", .ofNat settings.minConnections.toNat),
      ("max_connections", .ofNat settings.maxConnections.toNat),
      ("acquire_timeout_secs", .ofNat settings.acquireTimeout.toNat),
      ("run_migrations", .bool settings.runMigrations)]

end DatabaseSettings

end Syndication
