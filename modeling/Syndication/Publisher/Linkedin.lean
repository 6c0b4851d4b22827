import Syndication.Publisher.Work

namespace Syndication.Linkedin

def defaultBase : String := "https://api.linkedin.com"

/-- The header with the name of a new post. -/
def idHeader : String := "x-restli-id"

/-- Who a post is by. A bare identity is that of a member. -/
def author (account : Account) : String :=
  let id := Text.trim account.externalId
  if Text.startsWith "urn:li:" id then id else s!"urn:li:person:{id}"

/-- What is shared: the caption, and a link to the media if there are any. -/
def share (item : ContentItem) : Json :=
  let commentary := ("shareCommentary", Json.obj [("text", .str item.caption)])
  match item.mediaUrl with
  | none => .obj [commentary, ("shareMediaCategory", .str "NONE")]
  | some url =>
    .obj
      [("media", .arr [.obj [("originalUrl", .str url), ("status", .str "READY")]]), commentary,
        ("shareMediaCategory", .str "ARTICLE")]

def postBody (account : Account) (item : ContentItem) : Json :=
  .obj
    [("author", .str (author account)), ("lifecycleState", .str "PUBLISHED"),
      ("specificContent", .obj [("com.linkedin.ugc.ShareContent", share item)]),
      ("visibility", .obj [("com.linkedin.ugc.MemberNetworkVisibility", .str "PUBLIC")])]

def postRequest (base : String) (context : PublishContext) (item : ContentItem) : Http.Request :=
  (((Http.Request.post s!"{base}/v2/ugcPosts").withToken context.accessToken.expose).withHeader
    "x-restli-protocol-version" "2.0.0").withJson (postBody context.account item)

def permalink (id : String) : String := s!"https://www.linkedin.com/feed/update/{id}"

/-- The name in a body, if the body has one. -/
def bodyId? (json : Json) : Option (Option String) := do
  (← Record.ofJson? ["id"] json).defaultedOptional "id" Json.str?

/-- The name of the post that a reply tells of. -/
def idOf (reply : Http.Reply) : Work String := do
  match reply.header? idHeader with
  | some id => return id
  | none =>
    match ← Work.decode reply bodyId? with
    | some id => return id
    | none => throw (.unexpectedResponse reply.status "ugcPosts response carried no post id")

def publish (base : String) (context : PublishContext) : Work PublishResult :=
  Work.withContent context fun item => do
    let reply ← Work.send (postRequest base context item)
    Work.onSuccess .linkedin "ugcPosts" reply do
      let id ← idOf reply
      return .published id (permalink id)

end Syndication.Linkedin
