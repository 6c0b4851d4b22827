import Syndication.Fault.Field

namespace Syndication

inductive FaultCode where
  | validationFailed
  | jobNotFound
  | accountNotFound
  | contentNotFound
  | invalidTransition
  | duplicateKey
  | database
  | eventBus
  | internal
deriving DecidableEq, Repr

namespace FaultCode

def all : List FaultCode :=
  [.validationFailed, .jobNotFound, .accountNotFound, .contentNotFound, .invalidTransition,
    .duplicateKey, .database, .eventBus, .internal]

def name : FaultCode → String
  | .validationFailed => "VALIDATION_FAILED"
  | .jobNotFound => "PUBLISH_JOB_NOT_FOUND"
  | .accountNotFound => "CONNECTED_ACCOUNT_NOT_FOUND"
  | .contentNotFound => "CONTENT_ITEM_NOT_FOUND"
  | .invalidTransition => "INVALID_STATE_TRANSITION"
  | .duplicateKey => "DUPLICATE_KEY"
  | .database => "DATABASE_ERROR"
  | .eventBus => "EVENT_BUS_ERROR"
  | .internal => "INTERNAL_ERROR"

def ofName? (name : String) : Option FaultCode := all.find? (·.name == name)

end FaultCode

/-- What a store, a bus or a reader answers when it does not do what it was asked for. Causes are
open-ended, so a fault carries a code to decide by, a message to show, and details by name. -/
structure ServiceFault where
  code : FaultCode
  message : String
  /-- Details by name; the first entry of a name counts. -/
  details : List (String × String) := []
deriving DecidableEq, Repr

namespace ServiceFault

/-- Sets a detail, replacing what was said under this name. -/
def withDetail (fault : ServiceFault) (name value : String) : ServiceFault :=
  { fault with details := (name, value) :: fault.details.filter (·.1 != name) }

def validation (field message : String) : ServiceFault :=
  withDetail ⟨.validationFailed, message, []⟩ "field" field

def database (message : String) : ServiceFault := ⟨.database, message, []⟩

def ofField (fault : FieldFault) : ServiceFault := validation fault.field fault.message

/-- Whether a write was refused because its key is taken. -/
def isDuplicate (fault : ServiceFault) : Bool := fault.code == .duplicateKey

/-- The fault as it appears inside other messages. -/
def display (fault : ServiceFault) : String := s!"[{fault.code.name}] {fault.message}"

end ServiceFault

end Syndication
