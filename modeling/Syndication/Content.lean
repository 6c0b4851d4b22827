import Syndication.Id
import Syndication.Time.Text

namespace Syndication

/-- The text and the media of one post. -/
structure ContentItem where
  id : ContentId
  userId : UserId
  title : String
  body : String
  /-- Where the media lies in media storage. -/
  mediaPath : Option String := none
  /-- Where everyone can fetch the media. -/
  mediaUrl : Option String := none
  tags : List String := []
  createdAt : Timestamp
deriving DecidableEq, Repr

namespace ContentItem

/-- Title and body as one text, with a blank line between them; blank parts are left out. -/
def caption (item : ContentItem) : String :=
  "\n\n".intercalate ([Text.trim item.title, Text.trim item.body].filter (!·.isEmpty))

def fieldNames : List String :=
  ["id", "user_id", "title", "body", "media_path", "media_url", "tags", "created_at"]

def toJson (item : ContentItem) : Json :=
  .obj
    [("id", item.id.toJson), ("user_id", item.userId.toJson), ("title", .str item.title),
      ("body", .str item.body), ("media_path", .orNull .str item.mediaPath),
      ("media_url", .orNull .str item.mediaUrl), ("tags", .strings item.tags),
      ("created_at", item.createdAt.toJson)]

def ofJson? (json : Json) : Option ContentItem := do
  let record ← Record.ofJson? fieldNames json
  return {
    id := ← record.required "id" ContentId.ofJson?
    userId := ← record.required "user_id" UserId.ofJson?
    title := ← record.required "title" Json.str?
    body := ← record.required "body" Json.str?
    mediaPath := ← record.optional "media_path" Json.str?
    mediaUrl := ← record.optional "media_url" Json.str?
    tags := ← record.defaulted "tags" [] Json.strings?
    createdAt := ← record.required "created_at" Timestamp.ofJson? }

end ContentItem

end Syndication
