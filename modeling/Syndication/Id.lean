import Syndication.Uuid
import Syndication.Fault.Field
import Syndication.Text.Blank

namespace Syndication

/-- Identity of a publish job. -/
structure JobId where
  uuid : Uuid
deriving DecidableEq, Repr

/-- Identity of the success record of a job. -/
structure PostId where
  uuid : Uuid
deriving DecidableEq, Repr

/-- Identity of the credentials that a user stored for one platform. -/
structure AccountId where
  uuid : Uuid
deriving DecidableEq, Repr

/-- Identity of a content item. -/
structure ContentId where
  uuid : Uuid
deriving DecidableEq, Repr

namespace JobId
def text (id : JobId) : String := id.uuid.text
def toJson (id : JobId) : Json := id.uuid.toJson
def ofJson? (json : Json) : Option JobId := (Uuid.ofJson? json).map .mk

/-- Different jobs have different texts. -/
theorem text_injective {id other : JobId} (same : id.text = other.text) : id = other :=
  congrArg JobId.mk (Uuid.text_injective same)
end JobId

namespace PostId
def text (id : PostId) : String := id.uuid.text
def toJson (id : PostId) : Json := id.uuid.toJson
def ofJson? (json : Json) : Option PostId := (Uuid.ofJson? json).map .mk
end PostId

namespace AccountId
def text (id : AccountId) : String := id.uuid.text
def toJson (id : AccountId) : Json := id.uuid.toJson
def ofJson? (json : Json) : Option AccountId := (Uuid.ofJson? json).map .mk
end AccountId

namespace ContentId
def text (id : ContentId) : String := id.uuid.text
def toJson (id : ContentId) : Json := id.uuid.toJson
def ofJson? (json : Json) : Option ContentId := (Uuid.ofJson? json).map .mk
end ContentId

/-- A user as the identity provider names them: any text that is not blank. -/
structure UserId where
  text : String
  notBlank : Text.isBlankText text = false
deriving DecidableEq, Repr

namespace UserId

def ofText (text : String) : Except FieldFault UserId :=
  if h : Text.isBlankText text = false then .ok ⟨text, h⟩ else .error (.empty "user_id")

def toJson (user : UserId) : Json := .str user.text

def ofJson? (json : Json) : Option UserId := json.str?.bind fun text => (ofText text).toOption

end UserId

/-- An event as its producer names it. -/
structure EventId where
  text : String
deriving DecidableEq, Repr

namespace EventId
/-- A name for an event of this program. -/
def ofUuid (uuid : Uuid) : EventId := ⟨uuid.text⟩
def toJson (id : EventId) : Json := .str id.text
def ofJson? (json : Json) : Option EventId := json.str?.map .mk
end EventId

end Syndication
