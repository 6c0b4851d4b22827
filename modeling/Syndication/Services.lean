import Syndication.Fault.Platform
import Syndication.Fault.Token
import Syndication.Publisher.Context
import Syndication.Records
import Syndication.Token.Locks

namespace Syndication

/-- What came of a call to a token endpoint within its time limit. -/
inductive TokenReply where
  | answered (answer : Except TokenError TokenGrant)
  | timedOut

/-- All that an execution asks of its surroundings. -/
inductive ServiceCall where
  | records (c : RecordCall)
  | getAccount (id : AccountId)
  | saveAccount (account : Account)
  | lease (account : AccountId)
  /-- Waits until the lock is free, and enters it. -/
  | enter (lease : Lease)
  | leave (lease : Lease)
  | giveBack (lease : Lease)
  | sweep (account : AccountId)
  /-- Renews a token, with a time limit in milliseconds. -/
  | renew (platform : Platform) (token : Secret) (limit : Nat)
  /-- Publishes through the publisher of a platform. -/
  | publish (publisher : Platform) (context : PublishContext)

@[reducible] def ServiceCall.Answer : ServiceCall → Type
  | .records c => c.Answer
  | .getAccount _ => Except ServiceFault (Option Account)
  | .saveAccount _ => Except ServiceFault Unit
  | .lease _ => Lease
  | .enter _ => Unit
  | .leave _ => Unit
  | .giveBack _ => Unit
  | .sweep _ => Unit
  | .renew .. => TokenReply
  | .publish .. => Except PlatformError PublishResult

abbrev Services : Interface := ⟨ServiceCall, ServiceCall.Answer⟩

/-- Work on the records as work with all services. -/
def Action.toServices {α : Type} (work : Action Records α) : Action Services α :=
  ExceptT.mk (work.run.through fun c => .ask (I := Services) (.records c))

namespace Services

def now : Program Services Timestamp := .ask (I := Services) (.records .now)

def getAccount (id : AccountId) : Program Services (Except ServiceFault (Option Account)) :=
  .ask (I := Services) (.getAccount id)

def saveAccount (account : Account) : Program Services (Except ServiceFault Unit) :=
  .ask (I := Services) (.saveAccount account)

def lease (account : AccountId) : Program Services Lease := .ask (I := Services) (.lease account)

def enter (lease : Lease) : Program Services Unit := .ask (I := Services) (.enter lease)

def leave (lease : Lease) : Program Services Unit := .ask (I := Services) (.leave lease)

def giveBack (lease : Lease) : Program Services Unit := .ask (I := Services) (.giveBack lease)

def sweep (account : AccountId) : Program Services Unit := .ask (I := Services) (.sweep account)

def renew (platform : Platform) (token : Secret) (limit : Nat) : Program Services TokenReply :=
  .ask (I := Services) (.renew platform token limit)

def publish (publisher : Platform) (context : PublishContext) :
    Program Services (Except PlatformError PublishResult) :=
  .ask (I := Services) (.publish publisher context)

end Services

end Syndication
