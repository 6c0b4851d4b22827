import Syndication.Event.Envelope
import Syndication.Http.Message
import Syndication.Program
import Syndication.Request

namespace Syndication

/-- Requests are popped from the lists of a broker, and events are sent on its channels. -/
inductive BrokerCall where
  /-- Pops from the end of a list, waiting so many seconds for something to pop. -/
  | pop (list : String) (seconds : UInt64)
  | publish (channel payload : String)

/-- A fault of the broker has a text only. A message that is published reaches so many
receivers. -/
@[reducible] def BrokerCall.Answer : BrokerCall → Type
  | .pop .. => Except String (Option String)
  | .publish .. => Except String Nat

abbrev Broker : Interface := ⟨BrokerCall, BrokerCall.Answer⟩

/-- The request that a text denotes. -/
def Request.ofText? (s : String) : Option Request := (Json.ofText? s).bind Request.ofJson?

/-- The compact text of a request. -/
def Request.text (request : Request) : String := request.toJson.text

/-- A list from which requests are popped. -/
structure RequestQueue where
  list : String
  /-- How long one pop waits. -/
  seconds : UInt64

namespace RequestQueue

def decode (payload : String) : Except ServiceFault Request :=
  match Request.ofText? payload with
  | some request => .ok request
  | none => .error ⟨.validationFailed, s!"Malformed publish request: {Http.unreadable}", []⟩

/-- The next request, if one comes in time. -/
def next (queue : RequestQueue) : Program Broker (Except ServiceFault (Option Request)) :=
  (Program.ask (I := Broker) (.pop queue.list queue.seconds)).bind fun
    | .ok (some payload) => .done ((decode payload).map some)
    | .ok none => .done (.ok none)
    | .error detail => .done (.error ⟨.eventBus, s!"Redis BRPOP failed: {detail}", []⟩)

end RequestQueue

/-- A channel on which events are sent. -/
structure EventChannel where
  name : String

namespace EventChannel

def send (channel : EventChannel) (envelope : Envelope) :
    Program Broker (Except ServiceFault Unit) :=
  (Program.ask (I := Broker) (.publish channel.name envelope.text)).bind fun
    | .ok _ => .done (.ok ())
    | .error detail => .done (.error ⟨.eventBus, s!"Redis PUBLISH failed: {detail}", []⟩)

/-- Sends envelopes in order, up to the first that fails. -/
def sendAll (channel : EventChannel) : List Envelope → Program Broker (Except ServiceFault Unit)
  | [] => .done (.ok ())
  | envelope :: rest => (channel.send envelope).bind fun
    | .ok () => channel.sendAll rest
    | .error fault => .done (.error fault)

end EventChannel

end Syndication
