import Syndication.Settings.Fault
import Syndication.Settings.Spelling
import Syndication.Text.Blank

namespace Syndication

inductive Deployment where
  | development
  | staging
  | production
deriving DecidableEq, Repr

namespace Deployment

def all : List Deployment := [.development, .staging, .production]

def name : Deployment → String
  | .development => "development"
  | .staging => "staging"
  | .production => "production"

def ofJson? (spelling : Spelling) (json : Json) : Option Deployment :=
  (spelling.word? (all.map name) json).bind fun word => all.find? (·.name == word)

end Deployment

structure WorkerSettings where
  deployment : Deployment := .development
  logLevel : String := "info,publish_orchestrator=debug,sqlx=warn"
  queueKey : String := "publish:requests"
  eventsChannel : String := "publish:events"
  pollTimeout : UInt64 := 5
  concurrency : UInt64 := 16
deriving DecidableEq, Repr

namespace WorkerSettings

def isProduction (settings : WorkerSettings) : Bool := settings.deployment == .production

def ofJson? (spelling : Spelling) (json : Json) : Option WorkerSettings := do
  let record ← spelling.record?
    ["environment", "log_level", "queue_key", "events_channel", "poll_timeout_secs", "concurrency"]
    json
  let default : WorkerSettings := {}
  return {
    deployment := ← record.defaulted "environment" default.deployment (Deployment.ofJson? spelling)
    logLevel := ← record.defaulted "log_level" default.logLevel spelling.text?
    queueKey := ← record.defaulted "queue_key" default.queueKey spelling.text?
    eventsChannel := ← record.defaulted "events_channel" default.eventsChannel spelling.text?
    pollTimeout := ← record.defaulted "poll_timeout_secs" default.pollTimeout spelling.count64?
    concurrency := ← record.defaulted "concurrency" default.concurrency spelling.count64? }

def validate (settings : WorkerSettings) : Except SettingsFault Unit := do
  refuseIf (Text.isBlankText settings.queueKey) (.missingRequired "WORKER__QUEUE_KEY")
  refuseIf (Text.isBlankText settings.eventsChannel) (.missingRequired "WORKER__EVENTS_CHANNEL")
  refuseIf (settings.pollTimeout == 0 || settings.pollTimeout > 60) (.invalidTimeout "worker poll")
  refuseIf (settings.concurrency == 0 || settings.concurrency > 256) .invalidConcurrency

def toJson (settings : WorkerSettings) : Json :=
  .obj
    [("environment", .str settings.deployment.name), ("log_level", .str settings.logLevel),
      ("queue_key", .str settings.queueKey), ("events_channel", .str settings.eventsChannel),
      ("poll_timeout_secs", .ofNat settings.pollTimeout.toNat),
      ("concurrency", .ofNat settings.concurrency.toNat),
      ("is_production", .bool settings.isProduction)]

end WorkerSettings

end Syndication
