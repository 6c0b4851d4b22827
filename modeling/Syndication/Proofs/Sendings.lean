import Syndication.Proofs.FormText
import Syndication.Proofs.JsonText
import Syndication.Proofs.Protocols
import Syndication.Proofs.ReplyRecords

namespace Syndication

namespace Http

/-- The header that says for whom a request is made. -/
def bearer (token : Secret) : String × String := ("authorization", "Bearer " ++ token.expose)

/-- The request posts a form with these fields, in this order, and says nothing else. -/
def PostsForm (token : Secret) (url : String) (fields : List (String × String))
    (request : Request) : Prop :=
  ∃ text,
    request = {
      method := .post
      url
      query := []
      headers := [bearer token, ("content-type", "application/x-www-form-urlencoded")]
      body := .text text } ∧
    ∀ others, Form.Carries text others ↔ others = fields

/-- The request posts a JSON value, with these further headers, and says nothing else. -/
def PostsJson (token : Secret) (url : String) (further : List (String × String)) (json : Json)
    (request : Request) : Prop :=
  ∃ text,
    request = {
      method := .post
      url
      query := []
      headers := bearer token :: (further ++ [("content-type", "application/json")])
      body := .text text } ∧
    Json.ofText? text = some json

theorem postsForm_withForm (token : Secret) (url : String) (fields : List (String × String)) :
    PostsForm token url fields (((Request.post url).withToken token.expose).withForm fields) :=
  ⟨_, rfl, fun _ => Form.carries_encode_iff⟩

namespace Reply

/-- The first header with this name, in any letter case, has this text as its value. -/
def HasHeader (name : String) (reply : Reply) (value : String) : Prop :=
  ∃ before spelled after, reply.headers = before ++ (spelled, some value) :: after ∧
    Text.upper spelled = Text.upper name ∧
    ∀ header ∈ before, Text.upper header.1 ≠ Text.upper name

/-- The body gives this text under this name, once, or as the only element of an array. -/
def States (name : String) (reply : Reply) (value : String) : Prop :=
  ∃ json, reply.Holds json ∧
    ((∃ fields, json = .obj fields ∧ Json.Only fields name (some (.str value))) ∨
      json = .arr [.str value])

theorem header?_eq_some_iff {reply : Reply} {name value : String} :
    reply.header? name = some value ↔ reply.HasHeader name value := by
  simp only [header?, Option.bind_eq_some_iff, List.find?_eq_some_iff_append, Text.sameLetters_iff,
    Bool.not_eq_true', ← Bool.not_eq_true]
  constructor
  · rintro ⟨⟨spelled, _⟩, ⟨same, before, after, parts, others⟩, rfl⟩
    exact ⟨before, spelled, after, parts, same, others⟩
  · rintro ⟨before, spelled, after, parts, same, others⟩
    exact ⟨(spelled, some value), ⟨same, before, after, parts, others⟩, rfl⟩

end Reply

end Http

/-- The field of a record that has no other. -/
theorem Record.only_get?_iff {name : String} {json value : Json} :
    (∃ record, ofJson? [name] json = some record ∧ record.get? name = some value) ↔
      (∃ fields, json = .obj fields ∧ Json.Only fields name (some value)) ∨
        json = .arr [value] := by
  cases json with
  | obj fields => simp [ofJson?, get?, Json.only_iff]
  | arr items =>
    match items with
    | [] => simp [ofJson?, get?]
    | [item] => simp [ofJson?, get?]
    | _ :: _ :: _ => simp [ofJson?]
  | _ => simp [ofJson?]

theorem Work.onlyField?_iff {reply : Http.Reply} {name value : String} :
    reply.json?.bind (onlyField? name) = some value ↔ reply.States name value := by
  simp only [Http.Reply.States, ← Record.only_get?_iff, ← Http.Reply.json?_eq_some_iff,
    Option.bind_eq_some_iff, onlyField?, Option.bind_eq_bind, Record.required,
    Json.str?_eq_some_iff, exists_eq_right]

namespace ContentItem

/-- Title and body without the blanks around them, and a blank line between them if both are
there. -/
def wording (item : ContentItem) : String :=
  let title := Text.trim item.title
  let body := Text.trim item.body
  if title = "" then body else if body = "" then title else title ++ "\n\n" ++ body

theorem caption_eq_wording (item : ContentItem) : item.caption = item.wording := by
  simp only [caption, wording, ← String.isEmpty_iff, List.filter_cons, List.filter_nil]
  cases untitled : (Text.trim item.title).isEmpty <;>
    cases empty : (Text.trim item.body).isEmpty <;> simp
  exact String.isEmpty_iff.1 empty

end ContentItem

namespace Youtube

/-- The title of the video: that of the item, with a mark if it is a short and has none. -/
inductive Titled (item : ContentItem) (postType : String) : String → Prop
  | marked : Text.upper postType = "SHORT" →
      ¬ "#Shorts".toList <:+: (Text.trim item.title).toList →
      Titled item postType (Text.trim item.title ++ " #Shorts")
  | plain : (Text.upper postType = "SHORT" →
      "#Shorts".toList <:+: (Text.trim item.title).toList) →
      Titled item postType (Text.trim item.title)

/-- The request opens a session for media of this type and size, and describes the video. -/
def OpensSession (address : String) (context : PublishContext) (item : ContentItem)
    (contentType : String) (size : Nat) (request : Http.Request) : Prop :=
  ∃ title, Titled item (context.request.postType.getD "POST") title ∧
    Http.PostsJson context.accessToken
      (address ++ "/upload/youtube/v3/videos?uploadType=resumable&part=snippet,status")
      [("x-upload-content-type", contentType), ("x-upload-content-length", toString size)]
      (.obj
        [("snippet", .obj
            [("description", .str item.body), ("tags", .arr (item.tags.map .str)),
              ("title", .str title)]),
          ("status", .obj [("privacyStatus", .str "public")])])
      request

/-- The request puts the media to the address of a session. -/
def Uploads (context : PublishContext) (contentType : String) (bytes : List UInt8) (url : String)
    (request : Http.Request) : Prop :=
  request = {
    method := .put
    url
    query := []
    headers := [Http.bearer context.accessToken, ("content-type", contentType)]
    body := .bytes bytes }

theorem titled_title (item : ContentItem) (postType : String) :
    Titled item postType (title item postType) := by
  have short : Text.sameLetters postType shortType = true ↔ Text.upper postType = "SHORT" :=
    Text.sameLetters_iff
  have mark : Text.contains shortMark (Text.trim item.title) = true ↔
      "#Shorts".toList <:+: (Text.trim item.title).toList := Text.contains_iff
  simp only [title, Bool.and_eq_true, Bool.not_eq_true', ← Bool.not_eq_true, short, mark]
  split
  · rename_i needs
    have whole : toString (Text.trim item.title) ++ toString " " ++ toString shortMark =
        Text.trim item.title ++ " #Shorts" := String.append_assoc
    rw [whole]
    exact .marked needs.1 needs.2
  · rename_i needsNot
    exact .plain fun isShort => by_contra fun lacks => needsNot ⟨isShort, lacks⟩

theorem writable_description (item : ContentItem) (postType : String) :
    (description item postType).Writable := by
  have tags (texts : List String) : Json.ItemsWritable (texts.map .str) := by
    induction texts with
    | nil => trivial
    | cons text texts ih => exact ⟨trivial, ih⟩
  simp [description, Json.strings, Json.Writable, Json.FieldsWritable, tags]

theorem sessionRequest_opensSession (address : String) (context : PublishContext)
    (item : ContentItem) (contentType : String) (size : Nat) :
    OpensSession address context item contentType size
      (sessionRequest address context item contentType size) := by
  refine ⟨_, titled_title item context.postType, _, ?_,
    Json.ofText?_text (writable_description item context.postType)⟩
  rw [← Text.ofList_decimal]
  rfl

end Youtube

namespace Linkedin

/-- Who a post is by: the identity of the account if it is a whole one, and else the member that
has it. -/
inductive Authors (account : Account) : String → Prop
  | whole : "urn:li:".toList <+: (Text.trim account.externalId).toList →
      Authors account (Text.trim account.externalId)
  | member : ¬ "urn:li:".toList <+: (Text.trim account.externalId).toList →
      Authors account ("urn:li:person:" ++ Text.trim account.externalId)

/-- The content of a post. -/
def content (item : ContentItem) : Json :=
  match item.mediaUrl with
  | none =>
    .obj
      [("shareCommentary", .obj [("text", .str item.wording)]),
        ("shareMediaCategory", .str "NONE")]
  | some url =>
    .obj
      [("media", .arr [.obj [("originalUrl", .str url), ("status", .str "READY")]]),
        ("shareCommentary", .obj [("text", .str item.wording)]),
        ("shareMediaCategory", .str "ARTICLE")]

/-- The request makes a post that everyone can see. -/
def Shares (address : String) (context : PublishContext) (item : ContentItem)
    (request : Http.Request) : Prop :=
  ∃ author, Authors context.account author ∧
    Http.PostsJson context.accessToken (address ++ "/v2/ugcPosts")
      [("x-restli-protocol-version", "2.0.0")]
      (.obj
        [("author", .str author), ("lifecycleState", .str "PUBLISHED"),
          ("specificContent", .obj [("com.linkedin.ugc.ShareContent", content item)]),
          ("visibility", .obj [("com.linkedin.ugc.MemberNetworkVisibility", .str "PUBLIC")])])
      request

theorem authors_author (account : Account) : Authors account (author account) := by
  simp only [author]
  split
  · rename_i whole
    exact .whole (Text.startsWith_iff.1 whole)
  · rename_i bare
    exact .member fun whole => bare (Text.startsWith_iff.2 whole)

theorem share_eq_content (item : ContentItem) : share item = content item := by
  cases has : item.mediaUrl <;> simp only [share, content, has, item.caption_eq_wording]

theorem writable_postBody (account : Account) (item : ContentItem) :
    (postBody account item).Writable := by
  have shared : (share item).Writable := by
    unfold share
    split <;> simp [Json.Writable, Json.FieldsWritable, Json.ItemsWritable]
  simp [postBody, Json.Writable, Json.FieldsWritable, shared]

theorem postRequest_shares (address : String) (context : PublishContext) (item : ContentItem) :
    Shares address context item (postRequest address context item) := by
  refine ⟨_, authors_author context.account, _, rfl, ?_⟩
  rw [← share_eq_content]
  exact Json.ofText?_text (writable_postBody context.account item)

theorem bodyId?_iff {reply : Http.Reply} {id : String} :
    reply.json?.bind bodyId? = some (some id) ↔ reply.States "id" id := by
  have noNull : Json.str? .null = none := rfl
  have given (record : Record) : record.defaultedOptional "id" Json.str? = some (some id) ↔
      record.get? "id" = some (.str id) := by
    simp [Record.defaultedOptional_eq_some_iff noNull, Json.str?_eq_some_iff]
  simp only [Http.Reply.States, ← Record.only_get?_iff, ← Http.Reply.json?_eq_some_iff,
    Option.bind_eq_some_iff, bodyId?, Option.bind_eq_bind, given]

/-- The reply names the post: in a header, or else in the body. -/
def Names (reply : Http.Reply) (id : String) : Prop :=
  reply.HasHeader "x-restli-id" id ∨
    (∀ other, ¬ reply.HasHeader "x-restli-id" other) ∧ reply.States "id" id

theorem name?_eq_some_iff {reply : Http.Reply} {id : String} :
    name? reply = some id ↔ Names reply id := by
  simp only [name?, Names, ← Http.Reply.header?_eq_some_iff, ← bodyId?_iff]
  change (reply.header? "x-restli-id").or _ = _ ↔ _
  cases reply.header? "x-restli-id" <;> simp [Option.join_eq_some_iff]

end Linkedin

namespace Instagram

/-- The request makes a container for media that everyone can fetch. -/
def MakesContainer (address : String) (context : PublishContext) (item : ContentItem)
    (mediaUrl : String) : Http.Request → Prop :=
  Http.PostsForm context.accessToken
    (address ++ "/" ++ Text.trim context.account.externalId ++ "/media")
    (("caption", item.wording) ::
      if Text.upper (context.request.postType.getD "POST") = "REEL" then
        [("media_type", "REELS"), ("video_url", mediaUrl)]
      else [("image_url", mediaUrl)])

/-- The request publishes a container. -/
def PublishesContainer (address : String) (context : PublishContext) (container : String) :
    Http.Request → Prop :=
  Http.PostsForm context.accessToken
    (address ++ "/" ++ Text.trim context.account.externalId ++ "/media_publish")
    [("creation_id", container)]

/-- The request asks for the link of published media. -/
def LooksUp (address : String) (context : PublishContext) (media : String)
    (request : Http.Request) : Prop :=
  request = {
    method := .get
    url := address ++ "/" ++ media
    query := [("fields", "permalink")]
    headers := [Http.bearer context.accessToken]
    body := .empty }

theorem containerRequest_makesContainer (address : String) (context : PublishContext)
    (item : ContentItem) (mediaUrl : String) :
    MakesContainer address context item mediaUrl
      (containerRequest address context item mediaUrl) := by
  have reel : Text.sameLetters context.postType reelType = true ↔
      Text.upper (context.request.postType.getD "POST") = "REEL" := Text.sameLetters_iff
  simp only [MakesContainer, ← item.caption_eq_wording, ← reel]
  exact Http.postsForm_withForm ..

end Instagram

namespace Facebook

/-- The request posts to the feed of the page. -/
def PostsToFeed (address : String) (context : PublishContext) (item : ContentItem) :
    Http.Request → Prop :=
  Http.PostsForm context.accessToken
    (address ++ "/" ++ Text.trim context.account.externalId ++ "/feed")
    (("message", item.wording) :: item.mediaUrl.toList.map fun link => ("link", link))

theorem feedRequest_postsToFeed (address : String) (context : PublishContext)
    (item : ContentItem) :
    PostsToFeed address context item (feedRequest address context item) := by
  simp only [PostsToFeed, ← item.caption_eq_wording]
  exact Http.postsForm_withForm ..

end Facebook

/-- One of the requests that a platform takes for a post. -/
structure Leg where
  /-- What is asked for, with what the reply before it gave. -/
  asks : String → Http.Request → Prop
  /-- What a reply of success gives. -/
  tells : Http.Reply → String → Prop

/-- The answer is a reply of success that gives this. -/
def Leg.Gives (leg : Leg) (answer : Except Http.SendFault Http.Reply) (value : String) : Prop :=
  ∃ reply, answer = .ok reply ∧ (200 ≤ reply.status ∧ reply.status ≤ 299) ∧ leg.tells reply value

/-- The requests are those of the legs, in their order, up to the first whose answer gives nothing.
Each one is made with what the answer to the one before it gave. Only a publisher that is not over
may have some of them still to send. -/
def Walked (isOver : Prop) : List Leg → String → List Web.Sending → Prop
  | [], _, sendings => sendings = []
  | _ :: _, _, [] => ¬ isOver
  | leg :: legs, value, (request, answer) :: later => leg.asks value request ∧
      ((∃ next, leg.Gives answer next ∧ Walked isOver legs next later) ∨
        later = [] ∧ ∀ next, ¬ leg.Gives answer next)

/-- Every request of the leg has this method. -/
def Leg.Uses (leg : Leg) (method : Http.Method) : Prop :=
  ∀ value request, leg.asks value request → request.method = method

theorem Walked.methods {isOver : Prop} {legs : List Leg} {methods : List Http.Method}
    {value : String} {sendings : List Web.Sending} (walked : Walked isOver legs value sendings)
    (uses : List.Forall₂ Leg.Uses legs methods) : sendings.map (·.1.method) <+: methods := by
  induction uses generalizing value sendings with
  | nil => simp [show sendings = [] from walked]
  | @cons leg method legs methods uses _ ih =>
    match sendings with
    | [] => exact List.nil_prefix
    | (request, answer) :: later =>
      obtain ⟨asks, goesOn⟩ := walked
      rw [List.map_cons, uses value request asks]
      rcases goesOn with ⟨next, _, walked⟩ | ⟨rfl, _⟩
      · exact List.cons_prefix_cons.2 ⟨rfl, ih walked⟩
      · exact List.cons_prefix_cons.2 ⟨rfl, List.nil_prefix⟩

/-- The step makes the request of the leg, and looks for what its replies tell. -/
structure Step.Fits (step : Step) (leg : Leg) : Prop where
  asks : ∀ value, leg.asks value (step.request value)
  tells : ∀ reply value, step.value? reply = some value ↔ leg.tells reply value

theorem Step.Fits.given?_iff {step : Step} {leg : Leg} (fits : step.Fits leg)
    {answer : Except Http.SendFault Http.Reply} {value : String} :
    step.given? answer = some value ↔ leg.Gives answer value := by
  simp only [Step.given?_eq_some, Leg.Gives, Http.Reply.isSuccess_iff, fits.tells]

namespace Protocol

/-- The legs that are left when the post is there: none, or that of the lookup. -/
inductive Closes (protocol : Protocol) : List Leg → Prop
  | none : protocol.lookup = .none → Closes protocol []
  | lookup {make : String → Http.Request} {leg : Leg} : protocol.lookup = some make →
      (∀ id, leg.asks id (make id)) → Closes protocol [leg]

variable {protocol : Protocol} {platform : Platform} {steps : List Step} {legs last : List Leg}
  {value id : String} {log : List Web.Exchange}
  {rest : Program Web (Except PlatformError PublishResult)}

theorem finish_walked (closes : protocol.Closes last)
    (follows : (protocol.finish id).Follows log rest) :
    Walked rest.IsOver last id (Web.requests log) := by
  cases closes with
  | none has =>
    rw [finish, has] at follows
    cases follows
    exact rfl
  | @lookup make leg has asks =>
    rw [finish, has] at follows
    cases follows with
    | stop => exact not_false
    | @call _ _ answer _ _ ended =>
      cases ended
      refine ⟨asks id, ?_⟩
      by_cases gives : ∃ next, leg.Gives answer next
      · obtain ⟨next, gives⟩ := gives
        exact .inl ⟨next, gives, rfl⟩
      · exact .inr ⟨rfl, not_exists.1 gives⟩

/-- The requests of a protocol go along the legs that its steps fit. -/
theorem goOn_walked (fits : List.Forall₂ Step.Fits steps legs) (closes : protocol.Closes last)
    (follows : (protocol.goOn platform steps value).Follows log rest) :
    Walked rest.IsOver (legs ++ last) value (Web.requests log) := by
  induction fits generalizing value log with
  | nil => exact finish_walked closes follows
  | @cons step leg steps legs fits _ ih =>
    rcases goOn_cons_follows follows with ⟨rfl, underway⟩ | ⟨answer, later, rfl, goesOn⟩
    · exact underway
    · refine ⟨fits.asks value, ?_⟩
      rcases goesOn with ⟨none, rfl, _⟩ | ⟨next, given, goesOn⟩
      · refine .inr ⟨rfl, fun next gives => ?_⟩
        rw [fits.given?_iff.2 gives] at none
        cases none
      · exact .inl ⟨next, fits.given?_iff.1 given, ih goesOn⟩

end Protocol

namespace Publisher

/-- The address is what was given, without the slashes at its end. -/
def Addresses (given address : String) : Prop :=
  (∃ slashes, given.toList = address.toList ++ List.replicate slashes '/') ∧
    address.toList.getLast? ≠ some '/'

/-- The requests that the platform takes for this, one after the other. -/
def Material.legs (address : String) (context : PublishContext) : Material → List Leg
  | .video item contentType bytes =>
    [⟨fun _ => Youtube.OpensSession address context item contentType bytes.length,
        Http.Reply.HasHeader "location"⟩,
      ⟨Youtube.Uploads context contentType bytes, Http.Reply.States "id"⟩]
  | .share item => [⟨fun _ => Linkedin.Shares address context item, Linkedin.Names⟩]
  | .picture item url =>
    [⟨fun _ => Instagram.MakesContainer address context item url, Http.Reply.States "id"⟩,
      ⟨Instagram.PublishesContainer address context, Http.Reply.States "id"⟩,
      ⟨Instagram.LooksUp address context, Http.Reply.States "permalink"⟩]
  | .entry item =>
    [⟨fun _ => Facebook.PostsToFeed address context item, Http.Reply.States "id"⟩]

theorem Material.legs_fit (address : String) (context : PublishContext) (material : Material) :
    ∃ legs last, material.legs address context = legs ++ last ∧
      List.Forall₂ Step.Fits (material.protocol address context).steps legs ∧
      (material.protocol address context).Closes last := by
  have identifies (reply : Http.Reply) (id : String) :
      reply.json?.bind (Work.onlyField? "id") = some id ↔ reply.States "id" id :=
    Work.onlyField?_iff
  cases material with
  | video item contentType bytes =>
    refine ⟨[_, _], [], rfl, .cons ?_ (.cons ?_ .nil), .none rfl⟩
    · exact ⟨fun _ => Youtube.sessionRequest_opensSession .., fun _ _ =>
        Http.Reply.header?_eq_some_iff⟩
    · exact ⟨fun _ => rfl, identifies⟩
  | share item =>
    exact ⟨[_], [], rfl, .cons ⟨fun _ => Linkedin.postRequest_shares .., fun _ _ =>
      Linkedin.name?_eq_some_iff⟩ .nil, .none rfl⟩
  | picture item url =>
    refine ⟨[_, _], [_], rfl, .cons ?_ (.cons ?_ .nil), .lookup rfl fun _ => rfl⟩
    · exact ⟨fun _ => Instagram.containerRequest_makesContainer .., identifies⟩
    · exact ⟨fun _ => Http.postsForm_withForm .., identifies⟩
  | entry item =>
    exact ⟨[_], [], rfl, .cons ⟨fun _ => Facebook.feedRequest_postsToFeed .., identifies⟩ .nil,
      .none rfl⟩

/-- The reply to the request that publishes tells this name of the post. -/
def TellsName : Platform → Http.Reply → String → Prop
  | .linkedin => Linkedin.Names
  | _ => Http.Reply.States "id"

theorem postId?_eq_some_iff {platform : Platform} {reply : Http.Reply} {id : String} :
    postId? platform reply = some id ↔ TellsName platform reply id := by
  cases platform with
  | linkedin => exact Linkedin.name?_eq_some_iff
  | _ => exact Work.onlyField?_iff

/-- The request that publishes was answered with success, and with this name of the post. -/
def Named (platform : Platform) (log : List Web.Exchange) (id : String) : Prop :=
  ∃ reply, Web.reply? log (publishing platform) = some reply ∧
    (200 ≤ reply.status ∧ reply.status ≤ 299) ∧ TellsName platform reply id

/-- The link of a post with this name. Only the pictures of a profile are looked up, and where the
lookup tells no link, the profile is the link. -/
def Links (context : PublishContext) (id : String) (looked : Option Http.Reply) :
    Platform → String → Prop
  | .youtube, link => link = "https://www.youtube.com/watch?v=" ++ id
  | .linkedin, link => link = "https://www.linkedin.com/feed/update/" ++ id
  | .facebook, link => link = "https://www.facebook.com/" ++ id
  | .instagram, link =>
    (∃ reply, looked = some reply ∧ (200 ≤ reply.status ∧ reply.status ≤ 299) ∧
      reply.States "permalink" link) ∨
    (∀ reply, looked = some reply → 200 ≤ reply.status ∧ reply.status ≤ 299 →
      ∀ other, ¬ reply.States "permalink" other) ∧
      link = "https://www.instagram.com/" ++ Text.trim context.account.externalId

variable {context : PublishContext} {log : List Web.Exchange}
  {rest : Program Web (Except PlatformError PublishResult)}

theorem named_iff {platform : Platform} {id : String} :
    Named platform log id ↔ Names platform log id := by
  simp only [Named, Names, Http.Reply.isSuccess_iff, postId?_eq_some_iff]

theorem links_link (platform : Platform) (id : String) (looked : Option Http.Reply) :
    Links context id looked platform (link context platform id looked) := by
  cases platform with
  | instagram =>
    have found (reply : Http.Reply) (link : String) :
        Instagram.linkIn? reply = some link ↔
          (200 ≤ reply.status ∧ reply.status ≤ 299) ∧ reply.States "permalink" link := by
      rw [Instagram.linkIn?, Option.ite_none_right_eq_some, Http.Reply.isSuccess_iff,
        Work.onlyField?_iff]
    cases has : looked.bind Instagram.linkIn? with
    | some told =>
      obtain ⟨reply, replied, isLink⟩ := Option.bind_eq_some_iff.1 has
      exact .inl ⟨reply, replied, by simpa [link, has] using (found reply told).1 isLink⟩
    | none =>
      refine .inr ⟨fun reply replied success other states => ?_, by simp [link, has]; rfl⟩
      rw [replied, Option.bind_some, (found reply other).2 ⟨success, states⟩] at has
      cases has
  | _ => rfl

theorem legs_methods {address : String} {platform : Platform} {readings : List Web.Exchange}
    {material : Material} (readies : Readies context platform readings (some material)) :
    List.Forall₂ Leg.Uses (material.legs address context) (methods platform) := by
  have form {token : Secret} {url : String} {fields : List (String × String)}
      {request : Http.Request} (posts : Http.PostsForm token url fields request) :
      request.method = .post := by
    obtain ⟨_, rfl, _⟩ := posts
    rfl
  have puts {contentType : String} {bytes : List UInt8} {url : String} {request : Http.Request}
      (uploads : Youtube.Uploads context contentType bytes url request) :
      request.method = .put := uploads ▸ rfl
  have gets {media : String} {request : Http.Request}
      (looksUp : Instagram.LooksUp address context media request) : request.method = .get :=
    looksUp ▸ rfl
  cases readies with
  | video _ =>
    exact .cons (fun _ _ ⟨_, _, _, posts, _⟩ => posts ▸ rfl) (.cons (fun _ _ => puts) .nil)
  | share => exact .cons (fun _ _ ⟨_, _, _, posts, _⟩ => posts ▸ rfl) .nil
  | picture _ =>
    exact .cons (fun _ _ => form) (.cons (fun _ _ => form) (.cons (fun _ _ => gets) .nil))
  | entry => exact .cons (fun _ _ => form) .nil

/-- A publisher that has come to its end has a success exactly if it was told the name of the post,
and then with this name and the link that belongs to it. -/
theorem publish_named {base : Platform → String} {platform : Platform}
    (follows : (publish base platform context).run.Follows log rest) (isOver : rest.IsOver) :
    ∃ outcome, rest = .done outcome ∧
      ((∃ result, outcome = .ok result ∧ result.success = true) ↔ ∃ id, Named platform log id) ∧
      ∀ id, Named platform log id → ∃ link,
        Links context id (Web.reply? log (publishing platform + 1)) platform link ∧
        outcome = .ok {
          success := true
          platformPostId := some id
          permalink := some link
          errorMessage := none
          failureKind := none } := by
  obtain ⟨outcome, is, succeeds, names⟩ := publish_outcome follows isOver
  simp only [← named_iff] at succeeds names
  exact ⟨outcome, is, succeeds, fun id named => ⟨_, links_link .., names id named⟩⟩

/-- The conduct of every publisher, whatever it reads and whatever its requests are answered. It
sends a beginning of the requests that its platform takes for what it has read: each one is made
with what the reply before it gave, and is sent only if that was a reply of success that gave it.
When the content item, the reference to the media or the media are missing, it ends in a failed
result and sends nothing. And when it has come to its end, it has a success exactly if the request
that publishes was answered with success and with the name of the post. The result then has this
name, and the link that belongs to it, whatever came of a lookup. -/
theorem publish_protocol {base : Platform → String} {platform : Platform}
    (follows : (publish base platform context).run.Follows log rest) :
    (∃ address, Addresses (base platform) address ∧
      ((Web.requests log = [] ∧
          ∀ material, ¬ Readies context platform (Web.readings log) (some material)) ∨
        ∃ material, Readies context platform (Web.readings log) (some material) ∧
          Walked rest.IsOver (material.legs address context) "" (Web.requests log))) ∧
    (Web.requests log).map (·.1.method) <+: methods platform ∧
    (Readies context platform (Web.readings log) none →
      Web.requests log = [] ∧ ∃ kind message, rest = .done (.ok {
        success := false
        platformPostId := none
        permalink := none
        errorMessage := some message
        failureKind := some kind })) ∧
    (rest.IsOver → ∃ outcome, rest = .done outcome ∧
      ((∃ result, outcome = .ok result ∧ result.success = true) ↔ ∃ id, Named platform log id) ∧
      ∀ id, Named platform log id → ∃ link,
        Links context id (Web.reply? log (publishing platform + 1)) platform link ∧
        outcome = .ok {
          success := true
          platformPostId := some id
          permalink := some link
          errorMessage := none
          failureKind := none }) := by
  have addresses : Addresses (base platform) (address (base platform)) := Text.dropTrailing_spec ..
  cases progress follows with
  | reading none unready =>
    exact ⟨⟨_, addresses, .inl ⟨none, fun material => unready _⟩⟩, by simp [none],
      fun refused => absurd refused (unready _), publish_named follows⟩
  | refused none refused =>
    exact ⟨⟨_, addresses, .inl ⟨none, fun material readies => readies.not_refused refused⟩⟩,
      by simp [none], fun _ => ⟨none, _, _, rfl⟩, publish_named follows⟩
  | @sending material _ script _ sends readies same =>
    obtain ⟨legs, last, parts, fits, closes⟩ :=
      material.legs_fit (address (base platform)) context
    have walked : Walked rest.IsOver (material.legs (address (base platform)) context) ""
        (Web.requests log) := by
      rw [parts, same]
      exact Protocol.goOn_walked fits closes sends
    exact ⟨⟨_, addresses, .inr ⟨material, readies, walked⟩⟩,
      walked.methods (legs_methods readies),
      fun refused => absurd refused readies.not_refused, publish_named follows⟩

open Rehearsal in
/-- A picture is published, and the lookup of its link is turned away. All three requests are made
as the platform takes them, and the result is a success with the link of the profile. -/
theorem publish_protocol_lookup : ∃ log address material,
    (publish defaultBase .instagram Cast.context).run.Follows log
      (.done (.ok (.published "media-1" "https://www.instagram.com/channel-1"))) ∧
    (Web.requests log).length = 3 ∧ Addresses (defaultBase .instagram) address ∧
    Readies Cast.context .instagram (Web.readings log) (some material) ∧
    Walked True (material.legs address Cast.context) "" (Web.requests log) ∧
    (Web.requests log).map (·.1.method) <+: [.post, .post, .get] := by
  let program := (publish defaultBase .instagram Cast.context).run
  let log := program.transcript Cast.line Cast.lookupRefused
  obtain ⟨rest, follows, isOver⟩ := program.exists_follows Cast.line Cast.lookupRefused
  have three : (Web.requests log).length = 3 := by decide +kernel
  have named : Names .instagram log "media-1" :=
    ⟨⟨200, Cast.headers, .text (Cast.naming "media-1")⟩, by decide +kernel, by decide +kernel,
      by decide +kernel⟩
  have turnedAway : Web.reply? log 2 = some ⟨500, Cast.headers, .text ""⟩ := by decide +kernel
  obtain ⟨⟨address, addresses, sends⟩, methods, _, ends⟩ := publish_protocol follows
  obtain ⟨outcome, rfl, _, names⟩ := ends isOver
  obtain ⟨link, links, rfl⟩ := names _ (named_iff.2 named)
  obtain rfl : link = "https://www.instagram.com/channel-1" := by
    rcases links with ⟨reply, replied, success, _⟩ | ⟨_, isProfile⟩
    · obtain rfl := Option.some.inj (turnedAway.symm.trans replied)
      exact absurd success (by decide)
    · exact isProfile.trans (by decide +kernel)
  rcases sends with ⟨none, _⟩ | ⟨material, readies, walked⟩
  · rw [none] at three
    cases three
  · exact ⟨log, address, material, follows, three, addresses, readies, walked, methods⟩

end Publisher

end Syndication
