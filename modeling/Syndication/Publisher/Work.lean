import Syndication.Content
import Syndication.Fault.Media
import Syndication.Program
import Syndication.Publisher.Context
import Syndication.Publisher.Refusal

namespace Syndication

/-- What publishers ask of their surroundings. -/
inductive WebCall where
  | findContent (id : ContentId)
  | mediaType (path : String)
  | mediaBytes (path : String)
  | send (request : Http.Request)

@[reducible] def WebCall.Answer : WebCall → Type
  | .findContent _ => Except ServiceFault (Option ContentItem)
  | .mediaType _ => Except MediaError String
  | .mediaBytes _ => Except MediaError (List UInt8)
  | .send _ => Except Http.SendFault Http.Reply

abbrev Web : Interface := ⟨WebCall, WebCall.Answer⟩

/-- Work for a platform, which may end in an error of the platform. -/
abbrev Work (α : Type) := ExceptT PlatformError (Program Web) α

namespace Work

def ofExcept {α : Type} (outcome : Except PlatformError α) : Work α := ExceptT.mk (.done outcome)

def transportError : Http.SendFault → PlatformError
  | .unreachable detail => .network detail
  | .timedOut detail => .timeout detail

/-- The reply to a request. -/
def send (request : Http.Request) : Work Http.Reply :=
  ExceptT.mk ((Program.ask (I := Web) (.send request)).bind fun answer =>
    .done (answer.mapError transportError))

/-- The reply to a request, or nothing when there is none. -/
def trySend (request : Http.Request) : Work (Option Http.Reply) :=
  ExceptT.mk ((Program.ask (I := Web) (.send request)).bind fun answer =>
    .done (.ok answer.toOption))

/-- Media that a content item refers to, or what was wrong with it. -/
def mediaOf (path : String) : Work (Except MediaError (String × List UInt8)) := ExceptT.mk <|
  (Program.ask (I := Web) (.mediaType path)).bind fun
    | .error fault => .done (.ok (.error fault))
    | .ok contentType => (Program.ask (I := Web) (.mediaBytes path)).bind fun
      | .error fault => .done (.ok (.error fault))
      | .ok bytes => .done (.ok (.ok (contentType, bytes)))

/-- The content item of a request. -/
def contentOf (id : ContentId) : Work (Option ContentItem) :=
  ExceptT.mk ((Program.ask (I := Web) (.findContent id)).bind fun answer =>
    .done (answer.mapError fun fault => .dependency s!"content lookup failed: {fault.display}"))

/-- Publishes a content item that has to be there. -/
def withContent (context : PublishContext) (publish : ContentItem → Work PublishResult) :
    Work PublishResult := do
  match ← contentOf context.request.contentId with
  | some item => publish item
  | none =>
    return .failed .configuration s!"content item {context.request.contentId.text} not found"

/-- Goes on with a reply of success; any other reply is the result. -/
def onSuccess (platform : Platform) (step : String) (reply : Http.Reply)
    (next : Work PublishResult) : Work PublishResult :=
  if reply.isSuccess then next else ofExcept (Refusal.result platform step reply)

/-- The value in the body of a reply. -/
def decode {α : Type} (reply : Http.Reply) (ofJson? : Json → Option α) : Work α :=
  match reply.json?.bind ofJson? with
  | some value => return value
  | none =>
    throw (.unexpectedResponse reply.status s!"malformed response body: {Http.unreadable}")

/-- A record whose only field is a required text. -/
def onlyField? (name : String) (json : Json) : Option String := do
  (← Record.ofJson? [name] json).required name Json.str?

end Work

end Syndication
