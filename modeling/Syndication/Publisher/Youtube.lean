import Syndication.Publisher.Work

namespace Syndication.Youtube

def defaultBase : String := "https://www.googleapis.com"

/-- The post type of shorts, in any letter case. -/
def shortType : String := "SHORT"

/-- The mark in the title of shorts. -/
def shortMark : String := "#Shorts"

def title (item : ContentItem) (postType : String) : String :=
  let title := Text.trim item.title
  if Text.sameLetters postType shortType && !Text.contains shortMark title then
    s!"{title} {shortMark}"
  else title

def description (item : ContentItem) (postType : String) : Json :=
  .obj
    [("snippet", .obj
        [("description", .str item.body), ("tags", .strings item.tags),
          ("title", .str (title item postType))]),
      ("status", .obj [("privacyStatus", .str "public")])]

def sessionUrl (base : String) : String :=
  s!"{base}/upload/youtube/v3/videos?uploadType=resumable&part=snippet,status"

def sessionRequest (base : String) (context : PublishContext) (item : ContentItem)
    (contentType : String) (size : Nat) : Http.Request :=
  ((((Http.Request.post (sessionUrl base)).withToken context.accessToken.expose).withHeader
    "x-upload-content-type" contentType).withHeader
    "x-upload-content-length" (.ofList (Text.decimal size))).withJson
    (description item context.postType)

def uploadRequest (url : String) (context : PublishContext) (contentType : String)
    (bytes : List UInt8) : Http.Request :=
  (Http.Request.withToken { method := .put, url, body := .bytes bytes }
    context.accessToken.expose).withHeader "content-type" contentType

def permalink (id : String) : String := s!"https://www.youtube.com/watch?v={id}"

/-- Sends the media to the address of a session. -/
def upload (url : String) (context : PublishContext) (contentType : String) (bytes : List UInt8) :
    Work PublishResult := do
  let reply ← Work.send (uploadRequest url context contentType bytes)
  Work.onSuccess .youtube "video upload" reply do
    let id ← Work.decode reply (Work.onlyField? "id")
    return .published id (permalink id)

/-- Opens a session and uploads the media. -/
def publishMedia (base : String) (context : PublishContext) (item : ContentItem)
    (contentType : String) (bytes : List UInt8) : Work PublishResult := do
  let reply ← Work.send (sessionRequest base context item contentType bytes.length)
  Work.onSuccess .youtube "upload session" reply <|
    match reply.header? "location" with
    | some url => upload url context contentType bytes
    | none =>
      throw (.unexpectedResponse reply.status "upload session response has no Location header")

def publish (base : String) (context : PublishContext) : Work PublishResult :=
  Work.withContent context fun item =>
    match item.mediaPath with
    | none => return .failed .configuration s!"content item {item.id.text} has no video to upload"
    | some path => do
      match ← Work.mediaOf path with
      | .error fault => return .failed fault.kind fault.message
      | .ok (contentType, bytes) => publishMedia base context item contentType bytes

end Syndication.Youtube
