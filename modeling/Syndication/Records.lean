import Syndication.Event.Envelope
import Syndication.Fault.Publish
import Syndication.Program

namespace Syndication

/-- What the keeping of records is asked for. Every call on a store or on the transport may fail. -/
inductive RecordCall where
  | now
  /-- An identifier that was never given out before. -/
  | freshId
  | insertJob (job : Job)
  /-- Replaces the row of a pending job; answers whether the row was pending. -/
  | updateJob (job : Job)
  | findJob (id : JobId)
  | findJobByKey (key : String)
  | insertPost (post : Post)
  | findPost (job : JobId)
  | send (envelope : Envelope)

@[reducible] def RecordCall.Answer : RecordCall → Type
  | .now => Timestamp
  | .freshId => Uuid
  | .insertJob _ => Except ServiceFault Unit
  | .updateJob _ => Except ServiceFault Bool
  | .findJob _ => Except ServiceFault (Option Job)
  | .findJobByKey _ => Except ServiceFault (Option Job)
  | .insertPost _ => Except ServiceFault Unit
  | .findPost _ => Except ServiceFault (Option Post)
  | .send _ => Except ServiceFault Unit

abbrev Records : Interface := ⟨RecordCall, RecordCall.Answer⟩

/-- A program that may end in a publish error. -/
abbrev Action (I : Interface) (α : Type) := ExceptT PublishError (Program I) α

namespace Action

variable {I : Interface} {α : Type}

def ofExcept (outcome : Except PublishError α) : Action I α := ExceptT.mk (.done outcome)

/-- A program that cannot fail. -/
def always (p : Program I α) : Action I α := ExceptT.mk (p.bind fun value => .done (.ok value))

/-- Goes on after a call on a store; a fault ends the action as a fault of persistence. -/
def persisted (p : Program I (Except ServiceFault α)) : Action I α :=
  ExceptT.mk (p.bind fun answer => .done (answer.mapError .persistence))

/-- Goes on after an event was sent; a fault ends the action as a fault of sending. -/
def delivered (p : Program I (Except ServiceFault α)) : Action I α :=
  ExceptT.mk (p.bind fun answer => .done (answer.mapError .eventPublish))

end Action

namespace Records

def now : Program Records Timestamp := .ask (I := Records) .now

def freshId : Program Records Uuid := .ask (I := Records) .freshId

def insertJob (job : Job) : Program Records (Except ServiceFault Unit) :=
  .ask (I := Records) (.insertJob job)

def updateJob (job : Job) : Program Records (Except ServiceFault Bool) :=
  .ask (I := Records) (.updateJob job)

def findJob (id : JobId) : Program Records (Except ServiceFault (Option Job)) :=
  .ask (I := Records) (.findJob id)

def findJobByKey (key : String) : Program Records (Except ServiceFault (Option Job)) :=
  .ask (I := Records) (.findJobByKey key)

def insertPost (post : Post) : Program Records (Except ServiceFault Unit) :=
  .ask (I := Records) (.insertPost post)

def findPost (job : JobId) : Program Records (Except ServiceFault (Option Post)) :=
  .ask (I := Records) (.findPost job)

def send (envelope : Envelope) : Program Records (Except ServiceFault Unit) :=
  .ask (I := Records) (.send envelope)

end Records

end Syndication
