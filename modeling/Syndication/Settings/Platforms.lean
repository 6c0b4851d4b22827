import Syndication.Publisher.Basic
import Syndication.Settings.Fault
import Syndication.Settings.Spelling

namespace Syndication

structure PlatformsSettings where
  youtubeBase : String := Youtube.defaultBase
  linkedinBase : String := Linkedin.defaultBase
  /-- The address that Instagram and Facebook share. -/
  graphBase : String := Facebook.defaultBase
  requestTimeout : UInt64 := 120
deriving DecidableEq, Repr

namespace PlatformsSettings

def base (settings : PlatformsSettings) : Platform → String
  | .youtube => settings.youtubeBase
  | .linkedin => settings.linkedinBase
  | .instagram | .facebook => settings.graphBase

def ofJson? (spelling : Spelling) (json : Json) : Option PlatformsSettings := do
  let record ← spelling.record?
    ["youtube_base_url", "linkedin_base_url", "graph_base_url", "request_timeout_secs"] json
  let default : PlatformsSettings := {}
  return {
    youtubeBase := ← record.defaulted "youtube_base_url" default.youtubeBase spelling.text?
    linkedinBase := ← record.defaulted "linkedin_base_url" default.linkedinBase spelling.text?
    graphBase := ← record.defaulted "graph_base_url" default.graphBase spelling.text?
    requestTimeout :=
      ← record.defaulted "request_timeout_secs" default.requestTimeout spelling.count64? }

def validate (settings : PlatformsSettings) : Except SettingsFault Unit := do
  checkUrl "PLATFORMS__YOUTUBE_BASE_URL" settings.youtubeBase
  checkUrl "PLATFORMS__LINKEDIN_BASE_URL" settings.linkedinBase
  checkUrl "PLATFORMS__GRAPH_BASE_URL" settings.graphBase
  refuseIf (settings.requestTimeout == 0 || settings.requestTimeout > 600)
    (.invalidTimeout "platform requests")

def toJson (settings : PlatformsSettings) : Json :=
  .obj
    [("youtube_base_url", .str settings.youtubeBase),
      ("linkedin_base_url", .str settings.linkedinBase),
      ("graph_base_url", .str settings.graphBase),
      ("request_timeout_secs", .ofNat settings.requestTimeout.toNat)]

end PlatformsSettings

end Syndication
