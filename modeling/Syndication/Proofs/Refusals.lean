import Syndication.Proofs.Documents
import Syndication.Proofs.Protocols

namespace Syndication

namespace Refusal

/-- The body is one document, and this is the last value of its error. -/
def Reports (body : String) (error : Json) : Prop :=
  ∃ json, Json.Denotes body json ∧ json.Last "error" error

/-- The last code of the error is this integer. -/
def HasCode (body : String) (code : Int) : Prop :=
  ∃ error, Reports body error ∧ error.Last "code" (.int code)

/-- The errors are a list, and one of them has this reason. -/
def HasReason (body reason : String) : Prop :=
  ∃ error entries entry, Reports body error ∧ error.Last "errors" (.arr entries) ∧
    entry ∈ entries ∧ entry.Last "reason" (.str reason)

/-- The body has a mark of a used-up quota. -/
def Exhausted (body : String) : Prop :=
  (∃ code ∈ [4, 17, 32, 613, 80001], HasCode body code) ∨
    ∃ reason ∈ ["quotaExceeded", "rateLimitExceeded", "userRateLimitExceeded",
      "dailyLimitExceeded"], HasReason body reason

/-- The body has the mark of a bad token. -/
def Revoked (body : String) : Prop := HasCode body 190

/-- The reply says that a quota is used up. -/
def Limits (reply : Http.Reply) : Prop := reply.status = 429 ∨ Exhausted reply.text

/-- The reply says that the token is bad. -/
def Disowns (reply : Http.Reply) : Prop := reply.status = 401 ∨ Revoked reply.text

/-- The kind of failure that a status stands for by itself. -/
def ofStatus (status : Nat) : Option FailureKind :=
  if status = 429 then some .rateLimited
  else if status = 401 then some .auth
  else if 500 ≤ status ∧ status ≤ 599 then some .transientNetwork
  else if 400 ≤ status ∧ status ≤ 499 then some .permanentPlatform
  else none

/-- What a publisher ends with at a step, with the first characters of the body in the message. -/
def ending (platform : Platform) (step : String) (reply : Http.Reply) :
    Option FailureKind → Except PlatformError PublishResult
  | some kind => .ok (.failed kind
      (s!"{platform.name} {step} failed with status {reply.status}: " ++
        .ofList (reply.text.toList.take 500)))
  | none => .error (.unexpectedResponse reply.status
      (s!"{platform.name} {step}: " ++ .ofList (reply.text.toList.take 500)))

variable {body : String}

theorem errorOf?_eq_some_iff {made : Json} :
    errorOf? body = some made ↔
      ∃ error, Reports body error ∧ error.document? (Json.maxDepth - 1) = some made := by
  simp only [errorOf?, Option.bind_eq_some_iff]
  constructor
  · rintro ⟨document, ⟨json, read, whole⟩, has⟩
    obtain ⟨error, last, isMade⟩ := (Json.document_field?_eq_some_iff whole).1 has
    exact ⟨error, ⟨json, Json.denotes_iff.2 ⟨read, Json.fits_of_document whole⟩, last⟩, isMade⟩
  · rintro ⟨error, ⟨json, denotes, last⟩, isMade⟩
    obtain ⟨read, fits⟩ := Json.denotes_iff.1 denotes
    obtain ⟨document, whole⟩ := fits.document
    exact ⟨document, ⟨json, read, whole⟩,
      (Json.document_field?_eq_some_iff whole).2 ⟨error, last, isMade⟩⟩

/-- What a body reports is itself within what a document can have. -/
theorem Reports.document {error : Json} (reports : Reports body error) :
    ∃ made, errorOf? body = some made ∧ error.document? (Json.maxDepth - 1) = some made := by
  obtain ⟨json, denotes, last⟩ := reports
  obtain ⟨made, isMade⟩ := (denotes.2.last last).document
  exact ⟨made, errorOf?_eq_some_iff.2 ⟨error, ⟨json, denotes, last⟩, isMade⟩, isMade⟩

theorem signed?_eq_some_iff {json : Json} {n : Int} :
    json.signed? = some n ↔ json = .int n ∧ n < 2 ^ 63 := by
  have bound : Nat.pow 2 63 = (2 ^ 63 : Int) := rfl
  cases json with
  | int m =>
    simp only [Json.signed?, bound, Option.ite_none_right_eq_some, Option.some.injEq,
      Json.int.injEq]
    exact ⟨fun ⟨small, same⟩ => ⟨same, same ▸ small⟩, fun ⟨same, small⟩ => ⟨same ▸ small, same⟩⟩
  | _ => simp [Json.signed?]

theorem codeOf?_eq_some_iff {depth : Nat} {error made : Json} {code : Int}
    (isMade : error.document? depth = some made) :
    codeOf? made = some code ↔ error.Last "code" (.int code) ∧ code < 2 ^ 63 := by
  simp only [codeOf?, Option.bind_eq_some_iff, signed?_eq_some_iff,
    Json.document_field?_eq_some_iff isMade]
  constructor
  · rintro ⟨_, ⟨value, last, same⟩, rfl, small⟩
    exact ⟨Json.document?_eq_int_iff.1 same ▸ last, small⟩
  · rintro ⟨last, small⟩
    exact ⟨_, ⟨_, last, Json.document?_eq_int_iff.2 rfl⟩, rfl, small⟩

theorem namesQuota_iff {depth : Nat} {entry made : Json}
    (isMade : entry.document? depth = some made) :
    namesQuota made = true ↔ ∃ reason ∈ quotaReasons, entry.Last "reason" (.str reason) := by
  simp only [namesQuota, Option.any_eq_true, Option.bind_eq_some_iff, List.contains_iff_mem,
    Json.document_field?_eq_some_iff isMade]
  constructor
  · rintro ⟨reason, ⟨text, ⟨value, last, same⟩, isReason⟩, member⟩
    cases text with
    | str =>
      cases isReason
      exact ⟨reason, member, Json.document?_eq_str_iff.1 same ▸ last⟩
    | _ => cases isReason
  · rintro ⟨reason, member, last⟩
    exact ⟨reason, ⟨_, ⟨_, last, Json.document?_eq_str_iff.2 rfl⟩, rfl⟩, member⟩

theorem any_iff_of_forall₂ {α β : Type} {p : β → Bool} {Q : α → Prop} {items : List α}
    {others : List β}
    (each : List.Forall₂ (fun item other => p other = true ↔ Q item) items others) :
    others.any p = true ↔ ∃ item ∈ items, Q item := by
  induction each with
  | nil => simp
  | cons first _ ih => simp [first, ih]

theorem listsQuota_iff {depth : Nat} {error made : Json}
    (isMade : error.document? depth = some made) :
    listsQuota made = true ↔ ∃ entries entry, error.Last "errors" (.arr entries) ∧
      entry ∈ entries ∧ ∃ reason ∈ quotaReasons, entry.Last "reason" (.str reason) := by
  have lists : listsQuota made = true ↔
      ∃ others, made.field? "errors" = some (.arr others) ∧ others.any namesQuota = true := by
    unfold listsQuota
    split <;> simp_all
  simp only [lists, Json.document_field?_eq_some_iff isMade, Json.document?_eq_arr_iff]
  constructor
  · rintro ⟨others, ⟨_, last, entries, rfl, _, each⟩, named⟩
    obtain ⟨entry, member, names⟩ :=
      (any_iff_of_forall₂ (each.imp fun _ _ isOther => namesQuota_iff isOther)).1 named
    exact ⟨entries, entry, last, member, names⟩
  · rintro ⟨entries, entry, last, member, names⟩
    obtain ⟨document, whole⟩ := ((Json.fits_of_document isMade).last last).document
    obtain ⟨others, rfl⟩ := Json.document?_arr_eq_some whole
    obtain ⟨_, same, many, each⟩ := Json.document?_eq_arr_iff.1 whole
    cases same
    exact ⟨others, ⟨_, last, entries, rfl, many, each⟩,
      (any_iff_of_forall₂ (each.imp fun _ _ isOther => namesQuota_iff isOther)).2
        ⟨entry, member, names⟩⟩

theorem any_isQuota_iff : (errorOf? body).any isQuota = true ↔ Exhausted body := by
  simp only [Option.any_eq_true, isQuota, Bool.or_eq_true, List.contains_iff_mem]
  constructor
  · rintro ⟨made, has, marked⟩
    obtain ⟨error, reports, isMade⟩ := errorOf?_eq_some_iff.1 has
    rcases marked with ⟨code, isCode, throttles⟩ | lists
    · exact .inl ⟨code, throttles, error, reports, ((codeOf?_eq_some_iff isMade).1 isCode).1⟩
    · obtain ⟨entries, entry, last, member, reason, isQuota, named⟩ :=
        (listsQuota_iff isMade).1 lists
      exact .inr ⟨reason, isQuota, error, entries, entry, reports, last, member, named⟩
  · rintro (⟨code, throttles, error, reports, last⟩ |
      ⟨reason, isQuota, error, entries, entry, reports, last, member, named⟩)
    · obtain ⟨made, has, isMade⟩ := reports.document
      have small : ∀ code ∈ throttleCodes, code < 2 ^ 63 := by decide
      exact ⟨made, has, .inl ⟨code, (codeOf?_eq_some_iff isMade).2 ⟨last, small code throttles⟩,
        throttles⟩⟩
    · obtain ⟨made, has, isMade⟩ := reports.document
      exact ⟨made, has, .inr ((listsQuota_iff isMade).2
        ⟨entries, entry, last, member, reason, isQuota, named⟩)⟩

theorem bind_codeOf?_iff : (errorOf? body).bind codeOf? = some invalidTokenCode ↔ Revoked body := by
  rw [Option.bind_eq_some_iff]
  constructor
  · rintro ⟨made, has, isCode⟩
    obtain ⟨error, reports, isMade⟩ := errorOf?_eq_some_iff.1 has
    exact ⟨error, reports, ((codeOf?_eq_some_iff isMade).1 isCode).1⟩
  · rintro ⟨error, reports, last⟩
    obtain ⟨made, has, isMade⟩ := reports.document
    exact ⟨made, has, (codeOf?_eq_some_iff isMade).2 ⟨last, by decide⟩⟩

instance : Decidable (Exhausted body) := decidable_of_iff _ any_isQuota_iff

instance : Decidable (Revoked body) := decidable_of_iff _ bind_codeOf?_iff

instance (reply : Http.Reply) : Decidable (Limits reply) := inferInstanceAs (Decidable (_ ∨ _))

instance (reply : Http.Reply) : Decidable (Disowns reply) := inferInstanceAs (Decidable (_ ∨ _))

theorem kind?_eq (reply : Http.Reply) :
    kind? reply.status reply.text =
      if Limits reply then some .rateLimited
      else if Disowns reply then some .auth
      else if 500 ≤ reply.status ∧ reply.status ≤ 599 then some .transientNetwork
      else if 400 ≤ reply.status ∧ reply.status ≤ 499 then some .permanentPlatform
      else none := by
  have limits : (reply.status == 429 || (errorOf? reply.text).any isQuota) = true ↔
      Limits reply := by
    simp [Limits, any_isQuota_iff]
  have disowns : (reply.status == 401 ||
      (errorOf? reply.text).bind codeOf? == some invalidTokenCode) = true ↔ Disowns reply := by
    simp [Disowns, bind_codeOf?_iff]
  simp only [kind?, limits, disowns, Bool.and_eq_true, decide_eq_true_eq]

theorem result_eq (platform : Platform) (step : String) (reply : Http.Reply) :
    result platform step reply = ending platform step reply (kind? reply.status reply.text) := by
  unfold result ending
  cases kind? reply.status reply.text <;> rfl

/-- A body that is no document has no marks. -/
theorem not_exhausted (noDocument : ∀ json, ¬ Json.Denotes body json) : ¬ Exhausted body := by
  rintro (⟨_, _, _, ⟨json, denotes, _⟩, _⟩ | ⟨_, _, _, _, _, ⟨json, denotes, _⟩, _⟩) <;>
    exact noDocument json denotes

theorem not_revoked (noDocument : ∀ json, ¬ Json.Denotes body json) : ¬ Revoked body := by
  rintro ⟨_, ⟨json, denotes, _⟩, _⟩
  exact noDocument json denotes

end Refusal

/-- A reply without success to one of the steps is the last one: nothing more is sent, and what it
means is the result. -/
theorem Protocol.goOn_refused {protocol : Protocol} {platform : Platform} {steps : List Step}
    {value name : String} {log : List Web.Exchange}
    {rest : Program Web (Except PlatformError PublishResult)} {k : Nat} {reply : Http.Reply}
    (follows : (protocol.goOn platform steps value).Follows log rest)
    (isStep : (steps.map (·.name))[k]? = some name) (replied : Web.reply? log k = some reply)
    (unsuccessful : reply.isSuccess = false) :
    (Web.requests log).length = k + 1 ∧ rest = .done (Refusal.result platform name reply) := by
  induction steps generalizing value log k with
  | nil => simp at isStep
  | cons step steps ih =>
    rcases goOn_cons_follows follows with ⟨rfl, _⟩ | ⟨answer, later, rfl, goesOn⟩
    · simp [Web.reply?] at replied
    · cases k with
      | zero =>
        change answer.toOption = some reply at replied
        cases answer with
        | error fault => cases replied
        | ok given =>
          cases replied
          cases isStep
          rcases goesOn with ⟨_, rfl, rfl⟩ | ⟨next, gives, _⟩
          · refine ⟨rfl, ?_⟩
            simp [Step.halt, unsuccessful]
          · simp [Step.given?, unsuccessful] at gives
      | succ k =>
        change Web.reply? later k = some reply at replied
        rcases goesOn with ⟨_, rfl, _⟩ | ⟨next, _, goesOn⟩
        · cases replied
        · obtain ⟨count, ended⟩ := ih goesOn (by simpa using isStep) replied
          exact ⟨congrArg (· + 1) count, ended⟩

namespace Rehearsal.Cast

/-- A body that gives two codes and lists two errors. -/
def exhausted : String :=
  "\x7b\"error\": \x7b\"code\": 190, \"errors\": [\x7b\"reason\": \"invalid\"\x7d, " ++
    "\x7b\"reason\": \"quota\\u0045xceeded\"\x7d], \"code\": 100\x7d\x7d"

def publishRefusal : Http.Reply := ⟨400, headers, .text exhausted⟩

/-- A container is made, but it is not published. -/
def publishRefused : List (Except Http.SendFault Http.Reply) :=
  [answer 200 (naming "container-1"), .ok publishRefusal]

end Rehearsal.Cast

namespace Publisher

/-- What the steps of a publisher are called, in their order. The lookup of a link is none. -/
def stepNames : Platform → List String
  | .youtube => ["upload session", "video upload"]
  | .linkedin => ["ugcPosts"]
  | .instagram => ["media container", "media_publish"]
  | .facebook => ["page feed"]

theorem Readies.stepNames {base : String} {context : PublishContext} {platform : Platform}
    {readings : List Web.Exchange} {material : Material}
    (readies : Readies context platform readings (some material)) :
    (material.protocol base context).steps.map (·.name) = Publisher.stepNames platform := by
  cases readies <;> rfl

variable {base : Platform → String} {context : PublishContext} {platform : Platform}
  {log : List Web.Exchange} {rest : Program Web (Except PlatformError PublishResult)}

theorem publish_refused {k : Nat} {step : String} {reply : Http.Reply}
    (follows : (publish base platform context).run.Follows log rest)
    (isStep : (stepNames platform)[k]? = some step) (replied : Web.reply? log k = some reply)
    (unsuccessful : reply.isSuccess = false) :
    (Web.requests log).length = k + 1 ∧ rest = .done (Refusal.result platform step reply) := by
  cases progress follows with
  | reading none => simp [Web.reply?, none] at replied
  | refused none => simp [Web.reply?, none] at replied
  | @sending material _ script _ sends readies same =>
    rw [Web.reply?, same] at replied
    rw [same]
    exact Protocol.goOn_refused sends (readies.stepNames ▸ isStep) replied unsuccessful

open Refusal in
/-- Every reply without success to a step of a publisher, whatever its status and body, ends the
work: nothing more is sent. The failure has the kind of a used-up quota exactly if the status or the
body says so, else that of a bad token exactly if the status or the body says so, else the kind of
the class of the status, and for a status of another class there is no result but an error. A body
that is no document changes nothing about the kind that the status has by itself. -/
theorem refusal_kind {k : Nat} {step : String} {reply : Http.Reply}
    (follows : (publish base platform context).run.Follows log rest)
    (isStep : (stepNames platform)[k]? = some step) (replied : Web.reply? log k = some reply)
    (unsuccessful : reply.isSuccess = false) :
    (Web.requests log).length = k + 1 ∧
    ∃ kind, rest = .done (ending platform step reply kind) ∧
      (kind = some .rateLimited ↔ Limits reply) ∧
      (kind = some .auth ↔ ¬ Limits reply ∧ Disowns reply) ∧
      (kind = some .transientNetwork ↔ ¬ Limits reply ∧ ¬ Disowns reply ∧
        500 ≤ reply.status ∧ reply.status ≤ 599) ∧
      (kind = some .permanentPlatform ↔ ¬ Limits reply ∧ ¬ Disowns reply ∧
        400 ≤ reply.status ∧ reply.status ≤ 499) ∧
      (kind = none ↔ ¬ Limits reply ∧ ¬ Disowns reply ∧
        ¬ (400 ≤ reply.status ∧ reply.status ≤ 599)) ∧
      ((∀ json, ¬ Json.Denotes reply.text json) → kind = ofStatus reply.status) := by
  obtain ⟨count, ended⟩ := publish_refused follows isStep replied unsuccessful
  rw [result_eq] at ended
  have alone : (∀ json, ¬ Json.Denotes reply.text json) →
      kind? reply.status reply.text = ofStatus reply.status := by
    intro noDocument
    simp only [kind?_eq, ofStatus, Limits, Disowns, not_exhausted noDocument,
      not_revoked noDocument, or_false]
  refine ⟨count, kind? reply.status reply.text, ended, ?_, ?_, ?_, ?_, ?_, alone⟩ <;>
    rw [kind?_eq] <;> grind

open Rehearsal Refusal in
/-- The status blames the request, and the code that is repeated was that of a bad token at first.
But one of the errors that are listed names a quota. -/
theorem refusal_kind_exhausted : ∃ log,
    (publish defaultBase .instagram Cast.context).run.Follows log
      (.done (ending .instagram "media_publish" Cast.publishRefusal (some .rateLimited))) ∧
    (Web.requests log).length = 2 ∧ Web.reply? log 1 = some Cast.publishRefusal := by
  let program := (publish defaultBase .instagram Cast.context).run
  let log := program.transcript Cast.line Cast.publishRefused
  obtain ⟨rest, follows, _⟩ := program.exists_follows Cast.line Cast.publishRefused
  have replied : Web.reply? log 1 = some Cast.publishRefusal := by decide +kernel
  have limits : Limits Cast.publishRefusal := by decide +kernel
  obtain ⟨count, kind, ended, limited, _⟩ := refusal_kind follows rfl replied rfl
  rw [ended, limited.2 limits] at follows
  exact ⟨log, follows, count, replied⟩

end Publisher

end Syndication
