import Syndication.Publisher.Work

namespace Syndication.Instagram

/-- The post type of reels, in any letter case. -/
def reelType : String := "REEL"

def userOf (context : PublishContext) : String := Text.trim context.account.externalId

def containerForm (context : PublishContext) (item : ContentItem) (mediaUrl : String) :
    List (String × String) :=
  ("caption", item.caption) ::
    if Text.sameLetters context.postType reelType then
      [("media_type", "REELS"), ("video_url", mediaUrl)]
    else [("image_url", mediaUrl)]

def containerRequest (base : String) (context : PublishContext) (item : ContentItem)
    (mediaUrl : String) : Http.Request :=
  ((Http.Request.post s!"{base}/{userOf context}/media").withToken
    context.accessToken.expose).withForm (containerForm context item mediaUrl)

def publishRequest (base : String) (context : PublishContext) (container : String) :
    Http.Request :=
  ((Http.Request.post s!"{base}/{userOf context}/media_publish").withToken
    context.accessToken.expose).withForm [("creation_id", container)]

def lookupRequest (base : String) (context : PublishContext) (media : String) : Http.Request :=
  Http.Request.withToken
    { method := .get, url := s!"{base}/{media}", query := [("fields", "permalink")] }
    context.accessToken.expose

def profile (context : PublishContext) : String :=
  s!"https://www.instagram.com/{userOf context}"

/-- The link that a lookup found. -/
def linkIn? (reply : Http.Reply) : Option String :=
  if reply.isSuccess then reply.json?.bind (Work.onlyField? "permalink") else none

/-- The link of published media. -/
def permalink (base : String) (context : PublishContext) (media : String) : Work String := do
  let reply ← Work.trySend (lookupRequest base context media)
  return (reply.bind linkIn?).getD (profile context)

/-- Publishes a container. -/
def publishContainer (base : String) (context : PublishContext) (container : String) :
    Work PublishResult := do
  let reply ← Work.send (publishRequest base context container)
  Work.onSuccess .instagram "media_publish" reply do
    let media ← Work.decode reply (Work.onlyField? "id")
    return .published media (← permalink base context media)

/-- Publishes a picture or a reel. The post is there before its link is looked up, so that a lookup
without answer falls back to the profile. -/
def publish (base : String) (context : PublishContext) : Work PublishResult :=
  Work.withContent context fun item =>
    match item.mediaUrl with
    | none =>
      return .failed .configuration
        s!"content item {item.id.text} has no public media URL; Instagram requires one"
    | some mediaUrl => do
      let reply ← Work.send (containerRequest base context item mediaUrl)
      Work.onSuccess .instagram "media container" reply do
        let container ← Work.decode reply (Work.onlyField? "id")
        publishContainer base context container

end Syndication.Instagram
