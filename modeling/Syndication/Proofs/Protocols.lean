import Mathlib.Data.List.Forall2
import Syndication.Proofs.Rehearsal
import Syndication.Publisher.Basic

namespace Syndication

theorem Program.follows_transcript {I : Interface} {α σ : Type}
    (perform : (c : I.Call) → σ → I.Answer c × σ) (p : Program I α) (s : σ) :
    p.Follows (p.transcript perform s) (ended (p.run perform s).1) := by
  induction p generalizing s with
  | done value => exact .stop _
  | overflow => exact .stop _
  | call c next ih => exact .call (ih (perform c s).1 (perform c s).2)

theorem Program.exists_follows {I : Interface} {α σ : Type}
    (perform : (c : I.Call) → σ → I.Answer c × σ) (p : Program I α) (s : σ) :
    ∃ rest, p.Follows (p.transcript perform s) rest ∧ rest.IsOver :=
  ⟨_, p.follows_transcript perform s, ended_isOver _⟩

namespace Web

/-- A request, and what came of it. -/
abbrev Sending : Type := Http.Request × Except Http.SendFault Http.Reply

def requests (log : List Web.Exchange) : List Sending := log.filterMap fun
  | ⟨.send request, answer⟩ => some (request, answer)
  | _ => none

/-- What was read from the contents and the media. -/
def readings (log : List Web.Exchange) : List Web.Exchange := log.filter fun
  | ⟨.send _, _⟩ => false
  | _ => true

/-- The reply to the request with this number, counted from zero, if it has one. -/
def reply? (log : List Web.Exchange) (k : Nat) : Option Http.Reply :=
  ((requests log)[k]?).bind fun sending => sending.2.toOption

@[simp] theorem requests_nil : requests [] = [] := rfl

@[simp] theorem readings_nil : readings [] = [] := rfl

@[simp] theorem requests_send (request : Http.Request) (answer : Except Http.SendFault Http.Reply)
    (log : List Web.Exchange) :
    requests (⟨.send request, answer⟩ :: log) = (request, answer) :: requests log := rfl

@[simp] theorem readings_send (request : Http.Request) (answer : Except Http.SendFault Http.Reply)
    (log : List Web.Exchange) : readings (⟨.send request, answer⟩ :: log) = readings log := rfl

end Web

/-- A request, and what its reply has to give. -/
structure Step where
  /-- What the step is called in refusals. -/
  name : String
  /-- The request, made from what the step before gave. -/
  request : String → Http.Request
  /-- What a reply of success gives. -/
  value? : Http.Reply → Option String
  /-- What is said of a reply of success that gives nothing. -/
  lacking : Http.Reply → String

namespace Step

/-- What an answer gives to the next step: nothing, unless it is a reply of success. -/
def given? (step : Step) : Except Http.SendFault Http.Reply → Option String
  | .ok reply => if reply.isSuccess then step.value? reply else none
  | .error _ => none

/-- What a publisher ends with when an answer gives nothing. -/
def halt (step : Step) (platform : Platform) :
    Except Http.SendFault Http.Reply → Except PlatformError PublishResult
  | .ok reply =>
    if reply.isSuccess then .error (.unexpectedResponse reply.status (step.lacking reply))
    else Refusal.result platform step.name reply
  | .error fault => .error (Work.transportError fault)

theorem given?_eq_some {step : Step} {answer : Except Http.SendFault Http.Reply} {value : String} :
    step.given? answer = some value ↔
      ∃ reply, answer = .ok reply ∧ reply.isSuccess = true ∧ step.value? reply = some value := by
  cases answer with
  | error fault => simp [given?]
  | ok reply => simp [given?]

theorem halt_success {step : Step} {platform : Platform}
    {answer : Except Http.SendFault Http.Reply} {result : PublishResult}
    (halts : step.halt platform answer = .ok result) : result.success = false := by
  cases answer with
  | error fault => cases halts
  | ok reply =>
    simp only [halt, Refusal.result] at halts
    split at halts
    · cases halts
    · split at halts
      · cases halts
        rfl
      · cases halts

end Step

/-- The requests of a publisher, each made from what the reply to the one before it gave. -/
structure Protocol where
  /-- The requests that have to succeed, in their order. The value of the last one is the name of
  the post. -/
  steps : List Step
  /-- A request that is sent when the post is there, whatever comes of it. -/
  lookup : Option (String → Http.Request) := none
  /-- The link of a post, from its name and the reply to the lookup. -/
  link : String → Option Http.Reply → String

namespace Protocol

open Program

/-- What is left to do when the post is there. -/
def finish (protocol : Protocol) (id : String) : Program Web (Except PlatformError PublishResult) :=
  match protocol.lookup with
  | none => .done (.ok (.published id (protocol.link id none)))
  | some request => .call (.send (request id)) fun answer =>
    .done (.ok (.published id (protocol.link id answer.toOption)))

/-- Sends the requests of some steps; `value` is what the step before them gave. -/
def goOn (protocol : Protocol) (platform : Platform) :
    List Step → String → Program Web (Except PlatformError PublishResult)
  | [], id => protocol.finish id
  | step :: steps, value => .call (.send (step.request value)) fun answer =>
    match step.given? answer with
    | some next => protocol.goOn platform steps next
    | none => .done (step.halt platform answer)

variable {protocol : Protocol} {platform : Platform} {steps : List Step} {value id : String}
  {log : List Web.Exchange} {rest : Program Web (Except PlatformError PublishResult)}

theorem finish_follows (follows : (protocol.finish id).Follows log rest) :
    Web.readings log = [] ∧
      (rest.IsOver →
        rest = .done (.ok (.published id (protocol.link id (Web.reply? log 0))))) := by
  unfold finish at follows
  split at follows
  · cases follows
    exact ⟨rfl, fun _ => rfl⟩
  · cases follows with
    | stop => exact ⟨rfl, fun impossible => impossible.elim⟩
    | call ended =>
      cases ended
      exact ⟨rfl, fun _ => rfl⟩

/-- A step was not answered yet, or its answer gave nothing and that was the end, or the other
steps follow on it. -/
theorem goOn_cons_follows {step : Step}
    (follows : (protocol.goOn platform (step :: steps) value).Follows log rest) :
    (log = [] ∧ ¬ rest.IsOver) ∨ ∃ answer later,
      log = ⟨.send (step.request value), answer⟩ :: later ∧
      ((step.given? answer = none ∧ later = [] ∧ rest = .done (step.halt platform answer)) ∨
        ∃ next, step.given? answer = some next ∧
          (protocol.goOn platform steps next).Follows later rest) := by
  cases follows with
  | stop => exact .inl ⟨rfl, id⟩
  | @call _ _ answer later _ goesOn =>
    refine .inr ⟨answer, later, rfl, ?_⟩
    cases given : step.given? answer with
    | none =>
      simp only [given] at goesOn
      cases goesOn
      exact .inl ⟨rfl, rfl, rfl⟩
    | some next =>
      simp only [given] at goesOn
      exact .inr ⟨next, rfl, goesOn⟩

theorem goOn_reads (follows : (protocol.goOn platform steps value).Follows log rest) :
    Web.readings log = [] := by
  induction steps generalizing value log with
  | nil => exact (finish_follows follows).1
  | cons step steps ih =>
    rcases goOn_cons_follows follows with ⟨rfl, _⟩ | ⟨answer, later, rfl, rest⟩
    · rfl
    · rcases rest with ⟨_, rfl, _⟩ | ⟨next, _, goesOn⟩
      · rfl
      · exact (Web.readings_send ..).trans (ih goesOn)

/-- The outcome is no success. -/
def Barren (outcome : Except PlatformError PublishResult) : Prop :=
  ∀ result, outcome = .ok result → result.success = false

/-- What becomes of the last of the steps: it was not answered, or its answer gave no name of a
post and that was the end, or it gave one. -/
theorem goOn_last {steps : List Step} {last : Step}
    (follows : (protocol.goOn platform (steps ++ [last]) value).Follows log rest) :
    ((Web.requests log)[steps.length]? = none ∧
      (rest.IsOver → ∃ outcome, rest = .done outcome ∧ Barren outcome)) ∨
    ∃ request answer, (Web.requests log)[steps.length]? = some (request, answer) ∧
      ((last.given? answer = none ∧ rest = .done (last.halt platform answer)) ∨
        ∃ id, last.given? answer = some id ∧ (rest.IsOver → rest = .done (.ok
          (.published id (protocol.link id (Web.reply? log (steps.length + 1))))))) := by
  induction steps generalizing value log with
  | nil =>
    rcases goOn_cons_follows follows with ⟨rfl, underway⟩ | ⟨answer, later, rfl, goesOn⟩
    · exact .inl ⟨rfl, fun isOver => absurd isOver underway⟩
    · refine .inr ⟨_, answer, rfl, ?_⟩
      rcases goesOn with ⟨none, _, ended⟩ | ⟨id, given, finishes⟩
      · exact .inl ⟨none, ended⟩
      · exact .inr ⟨id, given, (finish_follows finishes).2⟩
  | cons step steps ih =>
    rcases goOn_cons_follows follows with ⟨rfl, underway⟩ | ⟨answer, later, rfl, goesOn⟩
    · exact .inl ⟨rfl, fun isOver => absurd isOver underway⟩
    · rcases goesOn with ⟨_, rfl, ended⟩ | ⟨next, _, goesOn⟩
      · exact .inl ⟨rfl, fun _ => ⟨_, ended, fun _ => Step.halt_success⟩⟩
      · exact ih goesOn

end Protocol

/-- What is said of a reply whose body cannot be read. -/
def Step.malformed : String := s!"malformed response body: {Http.unreadable}"

/-- A step whose reply has an identifier as the only field of its body. -/
def Step.identifying (name : String) (request : String → Http.Request) : Step where
  name
  request
  value? reply := reply.json?.bind (Work.onlyField? "id")
  lacking _ := Step.malformed

theorem Work.run_send {α : Type} (request : Http.Request) (next : Http.Reply → Work α) :
    (Work.send request >>= next).run = .call (I := Web) (.send request) fun answer =>
      match answer with
      | .ok reply => (next reply).run
      | .error fault => .done (.error (transportError fault)) := by
  change Program.call (I := Web) (.send request) (fun answer => _) = _
  congr 1
  funext answer
  cases answer <;> rfl

/-- What a publisher does at a step of its protocol. -/
theorem Protocol.goOn_cons (protocol : Protocol) (platform : Platform) (step : Step)
    (steps : List Step) (value : String) {next : Http.Reply → Work PublishResult}
    (leads : ∀ reply id, step.value? reply = some id →
      (next reply).run = protocol.goOn platform steps id)
    (lacks : ∀ reply, step.value? reply = none →
      (next reply).run = .done (.error (.unexpectedResponse reply.status (step.lacking reply)))) :
    (do
      let reply ← Work.send (step.request value)
      Work.onSuccess platform step.name reply (next reply)).run =
        protocol.goOn platform (step :: steps) value := by
  rw [Work.run_send, goOn]
  congr 1
  funext answer
  cases answer with
  | error fault => rfl
  | ok reply =>
    by_cases success : reply.isSuccess = true
    · simp only [Work.onSuccess, success, if_true, Step.given?]
      cases given : step.value? reply with
      | some id => exact leads reply id given
      | none => simp [lacks reply given, Step.halt, success]
    · simp only [Work.onSuccess, Step.given?, Step.halt, success]
      rfl

section

variable {α : Type} {reply : Http.Reply} {ofJson? : Json → Option α}
  {next : α → Work PublishResult}

theorem Work.run_decode {value : α} (decoded : reply.json?.bind ofJson? = some value) :
    (Work.decode reply ofJson? >>= next).run = (next value).run := by
  rw [Work.decode, decoded]
  rfl

theorem Work.run_decode_malformed (undecoded : reply.json?.bind ofJson? = none) :
    (Work.decode reply ofJson? >>= next).run =
      .done (.error (.unexpectedResponse reply.status Step.malformed)) := by
  rw [Work.decode, undecoded]
  rfl

end

namespace Youtube

def sessionStep (base : String) (context : PublishContext) (item : ContentItem)
    (contentType : String) (size : Nat) : Step where
  name := "upload session"
  request _ := sessionRequest base context item contentType size
  value? reply := reply.header? "location"
  lacking _ := "upload session response has no Location header"

def uploadStep (context : PublishContext) (contentType : String) (bytes : List UInt8) : Step :=
  .identifying "video upload" fun url => uploadRequest url context contentType bytes

/-- A session is opened, and the media are sent to its address. -/
def protocol (base : String) (context : PublishContext) (item : ContentItem) (contentType : String)
    (bytes : List UInt8) : Protocol where
  steps :=
    [sessionStep base context item contentType bytes.length, uploadStep context contentType bytes]
  link id _ := permalink id

theorem publishMedia_run (base : String) (context : PublishContext) (item : ContentItem)
    (contentType : String) (bytes : List UInt8) :
    (publishMedia base context item contentType bytes).run =
      (protocol base context item contentType bytes).goOn .youtube
        (protocol base context item contentType bytes).steps "" := by
  refine Protocol.goOn_cons _ _ (sessionStep base context item contentType bytes.length)
    [uploadStep context contentType bytes] "" (fun reply url located => ?_) fun reply missing => ?_
  · simp only [sessionStep] at located
    simp only [located]
    exact Protocol.goOn_cons _ _ (uploadStep context contentType bytes) [] url
      (fun reply id named => Work.run_decode named) fun reply => Work.run_decode_malformed
  · simp only [sessionStep] at missing
    simp only [missing]
    rfl

end Youtube

namespace Linkedin

/-- The name of the post that a reply tells of: that in the header, or else that in the body. -/
def name? (reply : Http.Reply) : Option String :=
  (reply.header? idHeader).or (reply.json?.bind bodyId?).join

/-- What is said of a reply that has no name for the post. -/
def nameless (reply : Http.Reply) : String :=
  if (reply.json?.bind bodyId?).isSome then "ugcPosts response carried no post id"
  else Step.malformed

def postStep (base : String) (context : PublishContext) (item : ContentItem) : Step where
  name := "ugcPosts"
  request _ := postRequest base context item
  value? := name?
  lacking := nameless

theorem run_idOf (reply : Http.Reply) (next : String → Work PublishResult) :
    (idOf reply >>= next).run = match name? reply with
      | some id => (next id).run
      | none => .done (.error (.unexpectedResponse reply.status (nameless reply))) := by
  unfold idOf name? nameless Work.decode
  cases reply.header? idHeader with
  | some id => rfl
  | none =>
    cases reply.json?.bind bodyId? with
    | none => rfl
    | some name => cases name <;> rfl

/-- One post is made. -/
def protocol (base : String) (context : PublishContext) (item : ContentItem) : Protocol where
  steps := [postStep base context item]
  link id _ := permalink id

theorem publishItem_run (base : String) (context : PublishContext) (item : ContentItem) :
    (do
      let reply ← Work.send (postRequest base context item)
      Work.onSuccess .linkedin "ugcPosts" reply do
        let id ← idOf reply
        return .published id (permalink id) : Work PublishResult).run =
      (protocol base context item).goOn .linkedin (protocol base context item).steps "" := by
  refine Protocol.goOn_cons _ _ (postStep base context item) [] "" (fun reply id named => ?_)
    fun reply unnamed => ?_
  · have named : name? reply = some id := named
    rw [run_idOf, named]
    rfl
  · have unnamed : name? reply = none := unnamed
    rw [run_idOf, unnamed]
    rfl

end Linkedin

namespace Instagram

def containerStep (base : String) (context : PublishContext) (item : ContentItem)
    (mediaUrl : String) : Step :=
  .identifying "media container" fun _ => containerRequest base context item mediaUrl

def publishStep (base : String) (context : PublishContext) : Step :=
  .identifying "media_publish" fun container => publishRequest base context container

/-- A container is made and published, and the link is looked up. -/
def protocol (base : String) (context : PublishContext) (item : ContentItem) (mediaUrl : String) :
    Protocol where
  steps := [containerStep base context item mediaUrl, publishStep base context]
  lookup := some fun media => lookupRequest base context media
  link _ reply := (reply.bind linkIn?).getD (profile context)

theorem publishItem_run (base : String) (context : PublishContext) (item : ContentItem)
    (mediaUrl : String) :
    (do
      let reply ← Work.send (containerRequest base context item mediaUrl)
      Work.onSuccess .instagram "media container" reply do
        let container ← Work.decode reply (Work.onlyField? "id")
        publishContainer base context container : Work PublishResult).run =
      (protocol base context item mediaUrl).goOn .instagram
        (protocol base context item mediaUrl).steps "" := by
  refine Protocol.goOn_cons _ _ (containerStep base context item mediaUrl)
    [publishStep base context] "" (fun reply container named => ?_)
    fun reply => Work.run_decode_malformed
  rw [Work.run_decode named]
  exact Protocol.goOn_cons _ _ (publishStep base context) [] container
    (fun reply media named => Work.run_decode named) fun reply => Work.run_decode_malformed

end Instagram

namespace Facebook

def feedStep (base : String) (context : PublishContext) (item : ContentItem) : Step :=
  .identifying "page feed" fun _ => feedRequest base context item

/-- One post is made to the feed of the page. -/
def protocol (base : String) (context : PublishContext) (item : ContentItem) : Protocol where
  steps := [feedStep base context item]
  link id _ := permalink id

theorem publishItem_run (base : String) (context : PublishContext) (item : ContentItem) :
    (do
      let reply ← Work.send (feedRequest base context item)
      Work.onSuccess .facebook "page feed" reply do
        let id ← Work.decode reply (Work.onlyField? "id")
        return .published id (permalink id) : Work PublishResult).run =
      (protocol base context item).goOn .facebook (protocol base context item).steps "" := by
  exact Protocol.goOn_cons _ _ (feedStep base context item) [] ""
    (fun reply id named => Work.run_decode named) fun reply => Work.run_decode_malformed

end Facebook

namespace Rehearsal.Cast

def context : PublishContext := ⟨request, account, account.accessToken⟩

def item : ContentItem where
  id := request.contentId
  userId := user
  title := "Morning"
  body := ""
  mediaPath := some "morning.mp4"
  mediaUrl := some "https://media.test/morning.mp4"
  createdAt := morning

def headers : List (String × Option String) := [("Location", some "https://upload.test/1")]

def answer (status : Nat) (body : String) : Except Http.SendFault Http.Reply :=
  .ok { status, headers, body := .text body }

def line : (c : WebCall) → List (Except Http.SendFault Http.Reply) →
    c.Answer × List (Except Http.SendFault Http.Reply)
  | .findContent _, answers => (.ok (some item), answers)
  | .mediaType _, answers => (.ok "video/mp4", answers)
  | .mediaBytes _, answers => (.ok [0], answers)
  | .send _, [] => (.error (.unreachable "no line"), [])
  | .send _, answer :: answers => (answer, answers)

/-- The body of a reply that names what was made. -/
def naming (id : String) : String := "\x7b\"id\":\"" ++ id ++ "\"\x7d"

/-- A container is made and published, but its link cannot be looked up. -/
def lookupRefused : List (Except Http.SendFault Http.Reply) :=
  [answer 200 (naming "container-1"), answer 200 (naming "media-1"), answer 500 ""]

end Rehearsal.Cast

namespace Publisher

/-- What a publisher sends to its platform. -/
inductive Material where
  | video (item : ContentItem) (contentType : String) (bytes : List UInt8)
  | share (item : ContentItem)
  | picture (item : ContentItem) (url : String)
  | entry (item : ContentItem)

def Material.protocol (base : String) (context : PublishContext) : Material → Protocol
  | .video item contentType bytes => Youtube.protocol base context item contentType bytes
  | .share item => Linkedin.protocol base context item
  | .picture item url => Instagram.protocol base context item url
  | .entry item => Facebook.protocol base context item

/-- What a publisher has after its readings: something to send, or nothing since the content item,
the reference to its media or the media are missing. -/
inductive Readies (context : PublishContext) :
    Platform → List Web.Exchange → Option Material → Prop
  | noContent (platform : Platform) :
      Readies context platform [⟨.findContent context.request.contentId, .ok none⟩] none
  | noPath {item : ContentItem} : item.mediaPath = none → Readies context .youtube
      [⟨.findContent context.request.contentId, .ok (some item)⟩] none
  | noType {item : ContentItem} {path : String} {fault : MediaError} : item.mediaPath = some path →
      Readies context .youtube [⟨.findContent context.request.contentId, .ok (some item)⟩,
        ⟨.mediaType path, .error fault⟩] none
  | noBytes {item : ContentItem} {path contentType : String} {fault : MediaError} :
      item.mediaPath = some path →
      Readies context .youtube [⟨.findContent context.request.contentId, .ok (some item)⟩,
        ⟨.mediaType path, .ok contentType⟩, ⟨.mediaBytes path, .error fault⟩] none
  | noUrl {item : ContentItem} : item.mediaUrl = none → Readies context .instagram
      [⟨.findContent context.request.contentId, .ok (some item)⟩] none
  | video {item : ContentItem} {path contentType : String} {bytes : List UInt8} :
      item.mediaPath = some path →
      Readies context .youtube [⟨.findContent context.request.contentId, .ok (some item)⟩,
        ⟨.mediaType path, .ok contentType⟩, ⟨.mediaBytes path, .ok bytes⟩]
        (some (.video item contentType bytes))
  | share {item : ContentItem} : Readies context .linkedin
      [⟨.findContent context.request.contentId, .ok (some item)⟩] (some (.share item))
  | picture {item : ContentItem} {url : String} : item.mediaUrl = some url →
      Readies context .instagram [⟨.findContent context.request.contentId, .ok (some item)⟩]
        (some (.picture item url))
  | entry {item : ContentItem} : Readies context .facebook
      [⟨.findContent context.request.contentId, .ok (some item)⟩] (some (.entry item))

theorem Readies.not_refused {context : PublishContext} {platform : Platform}
    {readings : List Web.Exchange} {material : Material}
    (readies : Readies context platform readings (some material)) :
    ¬ Readies context platform readings none := by
  intro refused
  cases readies with
  | picture has =>
    cases refused with
    | noUrl hasNot =>
      rw [has] at hasNot
      cases hasNot
  | _ => cases refused

/-- How far a publisher has come. -/
inductive Progress (base : String) (context : PublishContext) (platform : Platform) :
    List Web.Exchange → Program Web (Except PlatformError PublishResult) → Prop
  /-- Readings are still to come, or the contents could not be read. -/
  | reading {log : List Web.Exchange} {rest : Program Web (Except PlatformError PublishResult)} :
      Web.requests log = [] → (∀ found, ¬ Readies context platform (Web.readings log) found) →
      (rest.IsOver → ∃ error, rest = .done (.error error)) → Progress base context platform log rest
  | refused {log : List Web.Exchange} {kind : FailureKind} {message : String} :
      Web.requests log = [] → Readies context platform (Web.readings log) none →
      Progress base context platform log (.done (.ok (.failed kind message)))
  | sending (material : Material) {log script : List Web.Exchange}
      {rest : Program Web (Except PlatformError PublishResult)} :
      ((material.protocol base context).goOn platform
        (material.protocol base context).steps "").Follows script rest →
      Readies context platform (Web.readings log) (some material) →
      Web.requests log = Web.requests script →
      Progress base context platform log rest

variable {base : String} {context : PublishContext} {log : List Web.Exchange}
  {rest : Program Web (Except PlatformError PublishResult)}

theorem withContent_progress {platform : Platform} {publish : ContentItem → Work PublishResult}
    (follows : (Work.withContent context publish).run.Follows log rest)
    (goesOn : ∀ item later, (publish item).run.Follows later rest →
      Progress base context platform
        (⟨.findContent context.request.contentId, .ok (some item)⟩ :: later) rest) :
    Progress base context platform log rest := by
  cases follows with
  | stop => exact .reading rfl (by rintro _ ⟨⟩) fun impossible => impossible.elim
  | @call _ _ answer later _ follows =>
    match answer with
    | .error fault =>
      cases follows
      exact .reading rfl (by rintro _ ⟨⟩) fun _ => ⟨_, rfl⟩
    | .ok none =>
      cases follows
      exact .refused rfl (.noContent platform)
    | .ok (some item) => exact goesOn item later follows

theorem youtube_progress (follows : (Youtube.publish base context).run.Follows log rest) :
    Progress base context .youtube log rest := by
  refine withContent_progress follows fun item later follows => ?_
  cases has : item.mediaPath with
  | none =>
    simp only [has] at follows
    cases follows
    exact .refused rfl (.noPath has)
  | some path =>
    simp only [has] at follows
    cases follows with
    | stop => exact .reading rfl (by rintro _ ⟨⟩; simp_all) fun impossible => impossible.elim
    | @call _ _ answer later _ follows =>
      cases answer with
      | error fault =>
        cases follows
        exact .refused rfl (.noType has)
      | ok contentType =>
        cases follows with
        | stop => exact .reading rfl (by rintro _ ⟨⟩) fun impossible => impossible.elim
        | @call _ _ answer later _ follows =>
          cases answer with
          | error fault =>
            cases follows
            exact .refused rfl (.noBytes has)
          | ok bytes =>
            change (Youtube.publishMedia base context item contentType bytes).run.Follows _ _
              at follows
            rw [Youtube.publishMedia_run] at follows
            have reads := Protocol.goOn_reads follows
            refine .sending (.video item contentType bytes) follows ?_ rfl
            change Readies _ _ (_ :: _ :: _ :: Web.readings later) _
            rw [reads]
            exact .video has

theorem linkedin_progress (follows : (Linkedin.publish base context).run.Follows log rest) :
    Progress base context .linkedin log rest := by
  refine withContent_progress follows fun item later follows => ?_
  rw [Linkedin.publishItem_run] at follows
  have reads := Protocol.goOn_reads follows
  refine .sending (.share item) follows ?_ rfl
  change Readies _ _ (_ :: Web.readings later) _
  rw [reads]
  exact .share

theorem instagram_progress (follows : (Instagram.publish base context).run.Follows log rest) :
    Progress base context .instagram log rest := by
  refine withContent_progress follows fun item later follows => ?_
  cases has : item.mediaUrl with
  | none =>
    simp only [has] at follows
    cases follows
    exact .refused rfl (.noUrl has)
  | some url =>
    simp only [has] at follows
    rw [Instagram.publishItem_run] at follows
    have reads := Protocol.goOn_reads follows
    refine .sending (.picture item url) follows ?_ rfl
    change Readies _ _ (_ :: Web.readings later) _
    rw [reads]
    exact .picture has

theorem facebook_progress (follows : (Facebook.publish base context).run.Follows log rest) :
    Progress base context .facebook log rest := by
  refine withContent_progress follows fun item later follows => ?_
  rw [Facebook.publishItem_run] at follows
  have reads := Protocol.goOn_reads follows
  refine .sending (.entry item) follows ?_ rfl
  change Readies _ _ (_ :: Web.readings later) _
  rw [reads]
  exact .entry

theorem progress {base : Platform → String} {platform : Platform}
    (follows : (publish base platform context).run.Follows log rest) :
    Progress (address (base platform)) context platform log rest := by
  cases platform with
  | youtube => exact youtube_progress follows
  | linkedin => exact linkedin_progress follows
  | instagram => exact instagram_progress follows
  | facebook => exact facebook_progress follows

/-- The methods of a publisher's requests. -/
def methods : Platform → List Http.Method
  | .youtube => [.post, .put]
  | .linkedin | .facebook => [.post]
  | .instagram => [.post, .post, .get]

/-- The number of the request that publishes the post, counted from zero. -/
def publishing : Platform → Nat
  | .youtube | .instagram => 1
  | .linkedin | .facebook => 0

/-- The name of a new post in the reply to the request that published it. -/
def postId? : Platform → Http.Reply → Option String
  | .linkedin, reply => Linkedin.name? reply
  | _, reply => reply.json?.bind (Work.onlyField? "id")

/-- The link of a post. Only a publisher that looks it up needs the reply to its lookup. -/
def link (context : PublishContext) : Platform → String → Option Http.Reply → String
  | .youtube, id, _ => Youtube.permalink id
  | .linkedin, id, _ => Linkedin.permalink id
  | .facebook, id, _ => Facebook.permalink id
  | .instagram, _, reply => (reply.bind Instagram.linkIn?).getD (Instagram.profile context)

/-- What is said of a reply of success to the request that publishes, if it has no name of a
post. -/
def nameless : Platform → Http.Reply → String
  | .linkedin, reply => Linkedin.nameless reply
  | _, _ => Step.malformed

/-- The last step of a protocol is the one that publishes, and gives the name of the post. -/
theorem Readies.last {platform : Platform} {readings : List Web.Exchange} {material : Material}
    (readies : Readies context platform readings (some material)) (base : String) :
    ∃ steps last, (material.protocol base context).steps = steps ++ [last] ∧
      steps.length = publishing platform ∧
      last.value? = postId? platform ∧ last.lacking = nameless platform ∧
      (material.protocol base context).link = link context platform := by
  cases readies with
  | video _ => exact ⟨[_], _, rfl, rfl, rfl, rfl, rfl⟩
  | share => exact ⟨[], _, rfl, rfl, rfl, rfl, rfl⟩
  | picture _ => exact ⟨[_], _, rfl, rfl, rfl, rfl, rfl⟩
  | entry => exact ⟨[], _, rfl, rfl, rfl, rfl, rfl⟩

/-- The name of the post that a publisher has been told of: its publishing request was answered with
success, and the reply gives the name. -/
def Names (platform : Platform) (log : List Web.Exchange) (id : String) : Prop :=
  ∃ reply, Web.reply? log (publishing platform) = some reply ∧ reply.isSuccess = true ∧
    postId? platform reply = some id

theorem Step.given?_of_reply {step : Step} {answer : Except Http.SendFault Http.Reply}
    {id : String} :
    step.given? answer = some id ↔ ∃ reply, answer.toOption = some reply ∧
      reply.isSuccess = true ∧ step.value? reply = some id := by
  rw [Step.given?_eq_some]
  cases answer <;> simp [Except.toOption]

/-- A publisher that has come to its end has a success exactly if it was told the name of the post,
and then with this name. -/
theorem Readies.outcome {platform : Platform} {readings script : List Web.Exchange}
    {material : Material} (readies : Readies context platform readings (some material))
    (follows : ((material.protocol base context).goOn platform
      (material.protocol base context).steps "").Follows script rest)
    (isOver : rest.IsOver) : ∃ outcome, rest = .done outcome ∧
      ((∃ id, Names platform script id) ∨ Protocol.Barren outcome) ∧
      ∀ id, Names platform script id → outcome = .ok (.published id
        (link context platform id (Web.reply? script (publishing platform + 1)))) := by
  obtain ⟨steps, last, parts, length, value, _, linked⟩ := readies.last base
  rw [parts] at follows
  rcases Protocol.goOn_last follows with ⟨unsent, ends⟩ | ⟨request, answer, sent, ends⟩
  · obtain ⟨outcome, is, barren⟩ := ends isOver
    refine ⟨outcome, is, .inr barren, ?_⟩
    rintro id ⟨reply, replied, _⟩
    simp [Web.reply?, ← length, unsent] at replied
  · have names (id : String) : Names platform script id ↔ last.given? answer = some id := by
      rw [Step.given?_of_reply, value]
      simp [Names, Web.reply?, ← length, sent]
    rcases ends with ⟨none, is⟩ | ⟨id, given, ends⟩
    · refine ⟨_, is, .inr fun _ => Step.halt_success, fun id named => ?_⟩
      rw [names, none] at named
      cases named
    · refine ⟨_, ends isOver, .inl ⟨id, (names id).2 given⟩, fun other named => ?_⟩
      obtain rfl : id = other := by simpa [names, given] using named
      rw [linked, length]

/-- When the request that publishes was answered with success, but not with a name of the post, the
publisher ends in an error. -/
theorem publish_nameless {base : Platform → String} {platform : Platform}
    (follows : (publish base platform context).run.Follows log rest) {reply : Http.Reply}
    (replied : Web.reply? log (publishing platform) = some reply) (success : reply.isSuccess = true)
    (unnamed : postId? platform reply = none) :
    rest = .done (.error (.unexpectedResponse reply.status (nameless platform reply))) := by
  cases progress follows with
  | reading none _ _ => simp [Web.reply?, none] at replied
  | refused none _ => simp [Web.reply?, none] at replied
  | @sending material _ script _ sends readies same =>
    obtain ⟨steps, last, parts, length, value, lacking, _⟩ := readies.last _
    rw [parts] at sends
    rw [Web.reply?, same, ← length] at replied
    rcases Protocol.goOn_last sends with ⟨unsent, _⟩ | ⟨request, answer, sent, ends⟩
    · simp [unsent] at replied
    · obtain rfl : answer = .ok reply := by
        cases answer with
        | error fault => simp [sent, Except.toOption] at replied
        | ok other => simpa [sent, Except.toOption] using replied
      rcases ends with ⟨_, is⟩ | ⟨id, given, _⟩
      · rw [is, Step.halt, if_pos success, lacking]
      · obtain ⟨_, ⟨⟩, _, named⟩ := Step.given?_eq_some.1 given
        simp [value, unnamed] at named

/-- A publisher that has come to its end has a success exactly if the request that publishes was
answered with success and with the name of the post. The result then has this name, and the link
that belongs to it, whatever came of a lookup. -/
theorem publish_outcome {base : Platform → String} {platform : Platform}
    (follows : (publish base platform context).run.Follows log rest) (isOver : rest.IsOver) :
    ∃ outcome, rest = .done outcome ∧
      ((∃ result, outcome = .ok result ∧ result.success = true) ↔ ∃ id, Names platform log id) ∧
      ∀ id, Names platform log id → outcome = .ok
        (.published id (link context platform id (Web.reply? log (publishing platform + 1)))) := by
  have unnamed (none : Web.requests log = []) (id : String) : ¬ Names platform log id := by
    rintro ⟨reply, replied, _⟩
    simp [Web.reply?, none] at replied
  cases progress follows with
  | reading none _ ends =>
    obtain ⟨error, is⟩ := ends isOver
    exact ⟨_, is, by simp [unnamed none], fun id named => absurd named (unnamed none id)⟩
  | refused none =>
    refine ⟨_, rfl, ?_, fun id named => absurd named (unnamed none id)⟩
    simp [unnamed none, PublishResult.failed]
  | @sending material _ script _ sends readies same =>
    have replies : Web.reply? log = Web.reply? script := by
      funext k
      rw [Web.reply?, same, Web.reply?]
    obtain ⟨outcome, is, named, names⟩ := readies.outcome sends isOver
    simp only [Names, replies] at named names ⊢
    refine ⟨outcome, is, ⟨?_, fun ⟨id, named⟩ => ⟨_, names id named, rfl⟩⟩, names⟩
    rintro ⟨result, ok, success⟩
    rcases named with named | barren
    · exact named
    · simp [barren result ok] at success

end Publisher

end Syndication
