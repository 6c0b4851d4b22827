import Syndication.Event.Envelope

namespace Syndication

/-- A transport that keeps all envelopes in the order of their arrival, and can be told to refuse
some types. -/
structure EventBus where
  sent : List Envelope := []
  refused : List String := []

namespace EventBus

def send (bus : EventBus) (envelope : Envelope) : Except ServiceFault EventBus :=
  if bus.refused.contains envelope.eventType then
    .error ⟨.eventBus, s!"Simulated publish failure for {envelope.eventType}", []⟩
  else .ok { bus with sent := bus.sent ++ [envelope] }

/-- Sends envelopes in order, up to the first that is refused. -/
def sendAll (bus : EventBus) : List Envelope → Except ServiceFault Unit × EventBus
  | [] => (.ok (), bus)
  | envelope :: rest =>
    match bus.send envelope with
    | .ok bus => bus.sendAll rest
    | .error fault => (.error fault, bus)

/-- Refuses a type from now on. -/
def refuse (bus : EventBus) (eventType : String) : EventBus :=
  { bus with refused := eventType :: bus.refused }

def refuseNothing (bus : EventBus) : EventBus := { bus with refused := [] }

/-- Forgets what was sent. -/
def clear (bus : EventBus) : EventBus := { bus with sent := [] }

def eventTypes (bus : EventBus) : List String := bus.sent.map (·.eventType)

def ofType (bus : EventBus) (eventType : String) : List Envelope :=
  bus.sent.filter (·.eventType == eventType)

def ofAggregate (bus : EventBus) (id : String) : List Envelope :=
  bus.sent.filter (·.aggregateId == id)

def has (bus : EventBus) (eventType : String) : Bool :=
  bus.sent.any (·.eventType == eventType)

end EventBus

end Syndication
