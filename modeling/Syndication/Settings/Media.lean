import Syndication.Settings.Fault
import Syndication.Settings.Spelling

namespace Syndication

structure MediaSettings where
  /-- The directory below which all media lie. -/
  root : String := "./media"
deriving DecidableEq, Repr

namespace MediaSettings

def ofJson? (spelling : Spelling) (json : Json) : Option MediaSettings := do
  let record ← spelling.record? ["root"] json
  let default : MediaSettings := {}
  return { root := ← record.defaulted "root" default.root spelling.text? }

def validate (settings : MediaSettings) : Except SettingsFault Unit :=
  refuseIf settings.root.isEmpty (.missingRequired "MEDIA__ROOT")

def toJson (settings : MediaSettings) : Json := .obj [("root", .str settings.root)]

end MediaSettings

end Syndication
