import Syndication.Event.Payload
import Syndication.Json.Document
import Syndication.Json.Printer
import Syndication.Json.Reader

namespace Syndication

structure EventMetadata where
  /-- What the events of one piece of work have in common. -/
  correlationId : Option String := none
  userId : Option String := none
deriving DecidableEq, Repr

/-- An event on its way, with what a transport needs to route it. -/
structure Envelope where
  eventId : EventId
  eventType : String
  schemaVersion : UInt32
  aggregateId : String
  aggregateType : String
  occurredAt : Timestamp
  payload : Json
  metadata : EventMetadata

namespace EventMetadata

def toJson (m : EventMetadata) : Json :=
  .obj (Json.optionalField "correlation_id" .str m.correlationId ++
    Json.optionalField "user_id" .str m.userId)

def ofJson? (json : Json) : Option EventMetadata := do
  let record ← Record.ofJson? ["correlation_id", "user_id"] json
  return {
    correlationId := ← record.optional "correlation_id" Json.str?
    userId := ← record.optional "user_id" Json.str? }

end EventMetadata

namespace Envelope

/-- The number after the last `.v` of a type name, or one. -/
def versionOf (eventType : String) : UInt32 :=
  let number := do
    let (_, version) ← Text.splitLast? ['.', 'v'] eventType.toList
    let n ← Text.readUnsigned? version
    if n < UInt32.size then some n.toUInt32 else none
  number.getD 1

/-- The envelope of an event given by its parts. The payload may have no JSON form; the fault tells
why. -/
def wrap (eventType aggregateId aggregateType : String) (occurredAt : Timestamp) (eventId : EventId)
    (payload : Except String Json) : Except ServiceFault Envelope :=
  match payload with
  | .ok payload =>
    .ok
      ⟨eventId, eventType, versionOf eventType, aggregateId, aggregateType, occurredAt, payload, {}⟩
  | .error reason => .error ⟨.internal, s!"Failed to serialize {eventType}: {reason}", []⟩

/-- The kind of thing that all events of this program are about. -/
def jobAggregate : String := "PublishJob"

def ofEvent (event : Event) : Envelope where
  eventId := event.eventId
  eventType := event.typeName
  schemaVersion := versionOf event.typeName
  aggregateId := event.jobId.text
  aggregateType := jobAggregate
  occurredAt := event.occurredAt
  payload := event.payload
  metadata := {}

def withCorrelationId (e : Envelope) (id : String) : Envelope :=
  { e with metadata := { e.metadata with correlationId := some id } }

def withUserId (e : Envelope) (id : String) : Envelope :=
  { e with metadata := { e.metadata with userId := some id } }

def fieldNames : List String :=
  ["event_id", "event_type", "schema_version", "aggregate_id", "aggregate_type", "occurred_at",
    "payload", "metadata"]

def toJson (e : Envelope) : Json :=
  .obj
    [("event_id", e.eventId.toJson), ("event_type", .str e.eventType),
      ("schema_version", .ofNat e.schemaVersion.toNat), ("aggregate_id", .str e.aggregateId),
      ("aggregate_type", .str e.aggregateType), ("occurred_at", e.occurredAt.toJson),
      ("payload", e.payload), ("metadata", e.metadata.toJson)]

/-- Reads an envelope whose payload is taken by `payload`. -/
def read? (payload : Json → Option Json) (json : Json) : Option Envelope := do
  let record ← Record.ofJson? fieldNames json
  return {
    eventId := ← record.required "event_id" EventId.ofJson?
    eventType := ← record.required "event_type" Json.str?
    schemaVersion := ← record.required "schema_version" Json.count?
    aggregateId := ← record.required "aggregate_id" Json.str?
    aggregateType := ← record.required "aggregate_type" Json.str?
    occurredAt := ← record.required "occurred_at" Timestamp.ofJson?
    payload := ← record.required "payload" payload
    metadata := ← record.required "metadata" EventMetadata.ofJson? }

def ofJson? (json : Json) : Option Envelope := read? some json

/-- The compact text in which an envelope is sent. -/
def text (e : Envelope) : String := e.toJson.text

/-- The envelope that a text denotes. Its payload has to be a document. -/
def ofText? (s : String) : Option Envelope :=
  (Json.ofText? s).bind (read? (Json.document? (Json.maxDepth - 1)))

end Envelope

end Syndication
