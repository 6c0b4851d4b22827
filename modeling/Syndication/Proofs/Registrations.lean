import Syndication.Proofs.FormText
import Syndication.Proofs.RefreshTokens
import Syndication.Proofs.ReplyRecords

namespace Syndication

namespace TokenGrant

/-- What is stated of the lifetime in seconds. Only a lifetime that is missing or null is that of
one hour. -/
inductive Lasts : Option Json → UInt64 → Prop
  | unstated : Lasts none 3600
  | null : Lasts (some .null) 3600
  | stated (seconds : UInt64) : Lasts (some (.int seconds.toNat)) seconds

/-- What is stated of a new refresh token. -/
inductive Rotates : Option Json → Option Secret → Prop
  | unstated : Rotates none none
  | null : Rotates (some .null) none
  | stated (token : Secret) : Rotates (some (.str token.expose)) (some token)

/-- The value states the grant: an object by the names of its fields, in any order and among any
others, and an array by their places. -/
inductive StatedBy (grant : TokenGrant) : Json → Prop
  | byName {fields : List (String × Json)} {expires refresh : Option Json}
      (access : Json.Only fields "access_token" (some (.str grant.accessToken.expose)))
      (hasExpires : Json.Only fields "expires_in" expires)
      (hasRefresh : Json.Only fields "refresh_token" refresh)
      (lasts : Lasts expires grant.expiresIn) (rotates : Rotates refresh grant.refreshToken) :
      StatedBy grant (.obj fields)
  | byPlace {items : List Json} (expires refresh : Option Json)
      (places : items = .str grant.accessToken.expose :: (expires.toList ++ refresh.toList))
      (inOrder : expires = none → refresh = none) (lasts : Lasts expires grant.expiresIn)
      (rotates : Rotates refresh grant.refreshToken) : StatedBy grant (.arr items)

theorem lasts_iff {r : Record} {name : String} {seconds : UInt64} :
    Lasts (r.get? name) seconds ↔ ∃ given, r.defaultedOptional name Json.long? = some given ∧
      given.getD TokenEndpoints.defaultLifetime = seconds := by
  have noNull : Json.long? .null = none := rfl
  simp only [Record.defaultedOptional_eq_some_iff noNull, Json.long?_eq_some_iff]
  generalize r.get? name = value
  constructor
  · rintro (_ | _ | seconds)
    · exact ⟨none, .inl ⟨.inl rfl, rfl⟩, rfl⟩
    · exact ⟨none, .inl ⟨.inr rfl, rfl⟩, rfl⟩
    · exact ⟨some seconds, .inr ⟨_, seconds, rfl, rfl, rfl⟩, rfl⟩
  · rintro ⟨_, ⟨rfl | rfl, rfl⟩ | ⟨_, seconds, rfl, rfl, rfl⟩, rfl⟩
    · exact .unstated
    · exact .null
    · exact .stated seconds

theorem rotates_iff {r : Record} {name : String} {token : Option Secret} :
    Rotates (r.get? name) token ↔ ∃ given, r.defaultedOptional name Json.str? = some given ∧
      given.map Secret.mk = token := by
  have noNull : Json.str? .null = none := rfl
  simp only [Record.defaultedOptional_eq_some_iff noNull, Json.str?_eq_some_iff]
  generalize r.get? name = value
  constructor
  · rintro (_ | _ | token)
    · exact ⟨none, .inl ⟨.inl rfl, rfl⟩, rfl⟩
    · exact ⟨none, .inl ⟨.inr rfl, rfl⟩, rfl⟩
    · exact ⟨some token.expose, .inr ⟨_, token.expose, rfl, rfl, rfl⟩, rfl⟩
  · rintro ⟨_, ⟨rfl | rfl, rfl⟩ | ⟨_, text, rfl, rfl, rfl⟩, rfl⟩
    · exact .unstated
    · exact .null
    · exact .stated ⟨text⟩

end TokenGrant

namespace TokenEndpoints

open TokenGrant

def grantFields : List String := ["access_token", "expires_in", "refresh_token"]

theorem grantOfJson?_eq_some {json : Json} {grant : TokenGrant} :
    grantOfJson? json = some grant ↔ ∃ record, Record.ofJson? grantFields json = some record ∧
      record.get? "access_token" = some (.str grant.accessToken.expose) ∧
      Lasts (record.get? "expires_in") grant.expiresIn ∧
      Rotates (record.get? "refresh_token") grant.refreshToken := by
  obtain ⟨⟨access⟩, seconds, rotated⟩ := grant
  rw [grantOfJson?, Option.bind_eq_bind, Option.bind_eq_some_iff]
  refine exists_congr fun record => and_congr_right fun _ => ?_
  rw [lasts_iff, rotates_iff, Option.bind_eq_bind, Option.bind_eq_some_iff]
  constructor
  · rintro ⟨text, isText, rest⟩
    obtain ⟨expires, isLong, rest⟩ := Option.bind_eq_some_iff.1 rest
    obtain ⟨refresh, isNew, same⟩ := Option.bind_eq_some_iff.1 rest
    cases same
    obtain ⟨json, has, isText⟩ := Option.bind_eq_some_iff.1 isText
    exact ⟨Json.str?_eq_some_iff.1 isText ▸ has, ⟨expires, isLong, rfl⟩, refresh, isNew, rfl⟩
  · rintro ⟨has, ⟨expires, isLong, rfl⟩, refresh, isNew, rfl⟩
    refine ⟨access, ?_, ?_⟩
    · rw [Record.required, has]
      rfl
    · simp only [isLong, isNew, Option.bind_eq_bind, Option.bind_some]
      rfl

theorem grantOfJson?_obj {fields : List (String × Json)} {grant : TokenGrant} :
    grantOfJson? (.obj fields) = some grant ↔ grant.StatedBy (.obj fields) := by
  rw [grantOfJson?_eq_some]
  constructor
  · rintro ⟨record, isRecord, access, lasts, rotates⟩
    obtain ⟨once, same⟩ := Option.ite_none_right_eq_some.1 isRecord
    cases same
    have only {name : String} (member : name ∈ grantFields) :
        Json.Only fields name (fields.lookup name) :=
      Json.only_iff.2 ⟨by simpa using List.all_eq_true.1 once name member, rfl⟩
    exact .byName (access ▸ only (by decide)) (only (by decide)) (only (by decide)) lasts rotates
  · intro stated
    cases stated with
    | byName access hasExpires hasRefresh lasts rotates =>
      obtain ⟨onceAccess, isAccess⟩ := Json.only_iff.1 access
      obtain ⟨onceExpires, rfl⟩ := Json.only_iff.1 hasExpires
      obtain ⟨onceRefresh, rfl⟩ := Json.only_iff.1 hasRefresh
      have isRecord : Record.ofJson? grantFields (.obj fields) = some ⟨fields, true⟩ :=
        if_pos (by simp only [grantFields, List.all_cons, List.all_nil, onceAccess, onceExpires,
          onceRefresh, decide_true, Bool.and_true])
      exact ⟨_, isRecord, isAccess, lasts, rotates⟩

theorem grantOfJson?_arr {items : List Json} {grant : TokenGrant} :
    grantOfJson? (.arr items) = some grant ↔ grant.StatedBy (.arr items) := by
  rw [grantOfJson?_eq_some]
  constructor
  · rintro ⟨record, isRecord, access, lasts, rotates⟩
    obtain ⟨short, same⟩ := Option.ite_none_right_eq_some.1 isRecord
    cases same
    match items, short with
    | [], _ => cases access
    | [first], _ =>
      cases access
      exact .byPlace none none rfl id lasts rotates
    | [first, second], _ =>
      cases access
      exact .byPlace (some second) none rfl nofun lasts rotates
    | [first, second, third], _ =>
      cases access
      exact .byPlace (some second) (some third) rfl nofun lasts rotates
    | _ :: _ :: _ :: _ :: _, long =>
      simp only [grantFields, List.length_cons, List.length_nil] at long
      omega
  · intro stated
    cases stated with
    | byPlace expires refresh places inOrder lasts rotates =>
      have short : items.length ≤ grantFields.length := by
        cases expires <;> cases refresh <;> simp [places, grantFields]
      have isRecord : Record.ofJson? grantFields (.arr items) =
          some ⟨grantFields.zip items, false⟩ := if_pos short
      refine ⟨_, isRecord, ?_⟩
      subst places
      match expires, refresh, inOrder with
      | none, none, _ => exact ⟨rfl, lasts, rotates⟩
      | none, some _, inOrder => cases inOrder rfl
      | some _, none, _ => exact ⟨rfl, lasts, rotates⟩
      | some _, some _, _ => exact ⟨rfl, lasts, rotates⟩

/-- The reader of grants reads what states one. -/
theorem grantOfJson?_eq_some_iff {json : Json} {grant : TokenGrant} :
    grantOfJson? json = some grant ↔ grant.StatedBy json := by
  cases json with
  | obj fields => exact grantOfJson?_obj
  | arr items => exact grantOfJson?_arr
  | _ => exact ⟨nofun, nofun⟩

/-- The endpoints when these clients have been registered for their platforms, one after the
other. -/
def registered (history : List (Platform × OAuthClient)) : TokenEndpoints :=
  history.foldl (fun endpoints entry => endpoints.register entry.1 entry.2) {}

theorem client?_register (endpoints : TokenEndpoints) (platform other : Platform)
    (client : OAuthClient) :
    (endpoints.register platform client).client? other =
      if other = platform then some client else endpoints.client? other := by
  rw [client?, register, List.lookup_cons]
  split
  · rename_i same
    rw [beq_iff_eq.1 same, if_pos rfl]
  · rename_i differs
    have apart : other ≠ platform := by simpa using differs
    have same (entry : Platform × OAuthClient) :
        (entry.1 == other && entry.1 != platform) = (entry.1 == other) := by
      by_cases here : entry.1 = other <;> simp [here, apart]
    simp only [if_neg apart, client?, lookup_eq_head?_filter, List.filter_filter, same]

theorem client?_foldl {later : List (Platform × OAuthClient)} {platform : Platform}
    (none : ∀ entry ∈ later, entry.1 ≠ platform) (endpoints : TokenEndpoints) :
    (later.foldl (fun endpoints entry => endpoints.register entry.1 entry.2) endpoints).client?
      platform = endpoints.client? platform := by
  induction later generalizing endpoints with
  | nil => rfl
  | cons entry later ih =>
    obtain ⟨first, none⟩ := List.forall_mem_cons.1 none
    rw [List.foldl_cons, ih none, client?_register, if_neg first.symm]

theorem client?_registered_of_none {history : List (Platform × OAuthClient)} {platform : Platform}
    (never : ∀ entry ∈ history, entry.1 ≠ platform) :
    (registered history).client? platform = none := client?_foldl never {}

/-- The client of a platform is the last one that was registered for it. -/
theorem client?_registered {before later : List (Platform × OAuthClient)} {platform : Platform}
    {client : OAuthClient} (last : ∀ entry ∈ later, entry.1 ≠ platform) :
    (registered (before ++ (platform, client) :: later)).client? platform = some client := by
  rw [registered, List.foldl_append, List.foldl_cons, client?_foldl last, client?_register,
    if_pos rfl]

/-- The request asks for a new access token with this refresh token, on behalf of this client, and
says nothing else. -/
structure Asks (client : OAuthClient) (token : Secret) (request : Http.Request) : Prop where
  method : request.method = .post
  url : request.url = client.tokenUrl
  query : request.query = []
  headers : request.headers = [("content-type", Form.contentType)]
  body : ∃ text, request.body = .text text ∧ ∀ fields, Form.Carries text fields ↔ fields =
    [("grant_type", "refresh_token"), ("refresh_token", token.expose),
      ("client_id", client.clientId), ("client_secret", client.clientSecret.expose)]

theorem request_asks (client : OAuthClient) (token : Secret) :
    Asks client token (request client token) where
  method := rfl
  url := rfl
  query := rfl
  headers := rfl
  body := ⟨_, rfl, fun _ => Form.carries_encode_iff⟩

/-- The answer is a success whose body states the grant. -/
def Granted (answer : Except Http.SendFault Http.Reply) (grant : TokenGrant) : Prop :=
  ∃ reply, answer = .ok reply ∧ (200 ≤ reply.status ∧ reply.status ≤ 299) ∧
    ∃ json, reply.Holds json ∧ grant.StatedBy json

/-- What kind of failure an answer without a grant is. -/
inductive Refused : Except Http.SendFault Http.Reply → FailureKind → Prop
  | throttled {reply : Http.Reply} (limited : reply.status = 429) :
      Refused (.ok reply) .rateLimited
  | rejected {reply : Http.Reply} (blamed : 400 ≤ reply.status ∧ reply.status ≤ 499)
      (other : reply.status ≠ 429) : Refused (.ok reply) .auth
  | unavailable {reply : Http.Reply} (noSuccess : ¬ (200 ≤ reply.status ∧ reply.status ≤ 299))
      (noBlame : ¬ (400 ≤ reply.status ∧ reply.status ≤ 499)) :
      Refused (.ok reply) .transientNetwork
  | unreadable {reply : Http.Reply} (success : 200 ≤ reply.status ∧ reply.status ≤ 299)
      (nothing : ∀ grant, ¬ Granted (.ok reply) grant) : Refused (.ok reply) .transientNetwork
  | unreachable (fault : Http.SendFault) : Refused (.error fault) .transientNetwork

/-- What becomes of an answer. -/
def outcome : Except Http.SendFault Http.Reply → Except TokenError TokenGrant
  | .ok reply => grantOf reply
  | .error fault => .error (unreachable fault)

theorem renew_eq_call {endpoints : TokenEndpoints} {platform : Platform} {client : OAuthClient}
    (registered : endpoints.client? platform = some client) (token : Secret) :
    endpoints.renew platform token =
      .call (.send (request client token)) fun answer => .done (outcome answer) := by
  rw [renew_eq registered, Program.ask_bind]
  congr 1
  funext answer
  cases answer <;> rfl

variable {answer : Except Http.SendFault Http.Reply} {reply : Http.Reply} {grant : TokenGrant}
  {kind : FailureKind}

theorem grantOf_eq_ok_iff : grantOf reply = .ok grant ↔ Granted (.ok reply) grant := by
  have stated : reply.json?.bind grantOfJson? = some grant ↔
      ∃ json, reply.Holds json ∧ grant.StatedBy json := by
    simp only [Option.bind_eq_some_iff, grantOfJson?_eq_some_iff, Http.Reply.json?_eq_some_iff]
  have granted : Granted (.ok reply) grant ↔
      reply.isSuccess = true ∧ reply.json?.bind grantOfJson? = some grant := by
    rw [Http.Reply.isSuccess_iff, stated]
    exact ⟨fun ⟨_, same, rest⟩ => Except.ok.inj same ▸ rest, fun rest => ⟨_, rfl, rest⟩⟩
  rw [granted, grantOf]
  split
  · rename_i success
    cases reply.json?.bind grantOfJson? <;> simp [success]
  · rename_i failure
    simp [failure]

theorem outcome_eq_ok_iff : outcome answer = .ok grant ↔ Granted answer grant := by
  cases answer with
  | ok reply => exact grantOf_eq_ok_iff
  | error fault => exact ⟨nofun, fun ⟨_, impossible, _⟩ => nomatch impossible⟩

theorem refused_of_error {error : TokenError} (failed : outcome answer = .error error) :
    Refused answer error.kind := by
  cases answer with
  | error fault =>
    obtain rfl := Except.error.inj failed
    cases fault <;> exact .unreachable _
  | ok reply =>
    have nothing : ∀ grant, ¬ Granted (.ok reply) grant := by
      intro grant granted
      cases (outcome_eq_ok_iff.2 granted).symm.trans failed
    rw [outcome, grantOf] at failed
    split at failed
    · rename_i success
      split at failed
      · cases failed
      · cases failed
        exact .unreadable (Http.Reply.isSuccess_iff.1 success) nothing
    · rename_i failure
      rw [Http.Reply.isSuccess_iff] at failure
      obtain rfl := Except.error.inj failed
      unfold refusal
      split
      · rename_i limited
        exact .throttled limited
      · rename_i other
        split
        · rename_i blamed
          exact .rejected blamed other
        · rename_i noBlame
          exact .unavailable failure noBlame

theorem Refused.not_granted (refused : Refused answer kind) : ¬ Granted answer grant := by
  rintro ⟨reply, rfl, success, stated⟩
  cases refused with
  | throttled | rejected => omega
  | unavailable noSuccess => exact noSuccess success
  | unreadable _ nothing => exact nothing grant ⟨reply, rfl, success, stated⟩

/-- An answer is a failure of one kind at most. -/
theorem Refused.unique {other : FailureKind} (refused : Refused answer kind)
    (also : Refused answer other) : kind = other := by
  cases refused <;> cases also <;> first | rfl | omega

theorem outcome_error_iff :
    (∃ error, outcome answer = .error error ∧ error.kind = kind) ↔ Refused answer kind := by
  constructor
  · rintro ⟨error, failed, rfl⟩
    exact refused_of_error failed
  · intro refused
    cases is : outcome answer with
    | ok grant => exact (refused.not_granted (outcome_eq_ok_iff.1 is)).elim
    | error error => exact ⟨error, rfl, (refused_of_error is).unique refused⟩

/-- Clients that are registered in any order and number, and any answer of the endpoint. For a
platform that has none nothing is sent. For any other there is one request and no more, to the
endpoint that was registered for the platform last and with the credentials of this client only. The
answer is a grant exactly if it is a success whose body states one, and else a failure whose kind is
that of its status, or of an endpoint that did not work. -/
theorem renew_isolated (history : List (Platform × OAuthClient)) (platform : Platform)
    (token : Secret) :
    ((∀ entry ∈ history, entry.1 ≠ platform) →
      (registered history).renew platform token = .done (.error (.notConfigured platform))) ∧
    ∀ before client later, history = before ++ (platform, client) :: later →
      (∀ entry ∈ later, entry.1 ≠ platform) →
      ∃ (request : Http.Request)
        (outcome : Except Http.SendFault Http.Reply → Except TokenError TokenGrant),
        (registered history).renew platform token =
          .call (.send request) (fun answer => .done (outcome answer)) ∧
        Asks client token request ∧
        ∀ answer, (∀ grant, outcome answer = .ok grant ↔ Granted answer grant) ∧
          ∀ kind, (∃ error, outcome answer = .error error ∧ error.kind = kind) ↔
            Refused answer kind := by
  refine ⟨fun never => ?_, ?_⟩
  · rw [renew, client?_registered_of_none never]
  · rintro before client later rfl last
    exact ⟨request client token, outcome, renew_eq_call (client?_registered last) token,
      request_asks client token, fun answer =>
        ⟨fun grant => outcome_eq_ok_iff, fun kind => outcome_error_iff⟩⟩

end TokenEndpoints

namespace Rehearsal.Cast

def oldClient : OAuthClient := ⟨"https://old.test/token", "client-1", ⟨"secret-1"⟩⟩

def otherClient : OAuthClient := ⟨"https://other.test/token", "client-2", ⟨"secret-2"⟩⟩

def newClient : OAuthClient := ⟨"https://new.test/token", "client 3", ⟨"a&b=c%"⟩⟩

/-- A platform whose client was replaced, and one that came in between. -/
def clients : List (Platform × OAuthClient) :=
  [(.youtube, oldClient), (.linkedin, otherClient), (.youtube, newClient)]

/-- A reply that gives the fields of a grant by their places, and no lifetime. -/
def placed : Http.Reply := ⟨201, [], .text (Json.arr [.str "token-2", .null]).text⟩

end Rehearsal.Cast

namespace TokenEndpoints

open Rehearsal

/-- The client that was registered first is not used any more, though marks of the form are in the
secret of the other one. A lifetime of null is the default, and a status that the endpoint did not
find anything counts as a refusal. -/
theorem renew_isolated_replaced : ∃ (request : Http.Request)
    (outcome : Except Http.SendFault Http.Reply → Except TokenError TokenGrant),
    (registered Cast.clients).renew .youtube ⟨"refresh-1"⟩ =
      .call (.send request) (fun answer => .done (outcome answer)) ∧
    Asks Cast.newClient ⟨"refresh-1"⟩ request ∧
    outcome (.ok Cast.placed) = .ok ⟨⟨"token-2"⟩, 3600, none⟩ ∧
    ∃ error, outcome (.ok ⟨404, [], .broken⟩) = .error error ∧ error.kind = .auth := by
  obtain ⟨request, outcome, calls, asks, answers⟩ :=
    (renew_isolated Cast.clients .youtube ⟨"refresh-1"⟩).2
      [(.youtube, Cast.oldClient), (.linkedin, Cast.otherClient)] Cast.newClient [] rfl
      (List.forall_mem_nil _)
  have writable : Json.Writable (.arr [.str "token-2", .null]) := by
    simp [Json.Writable, Json.ItemsWritable]
  have granted : Granted (.ok Cast.placed) ⟨⟨"token-2"⟩, 3600, none⟩ :=
    ⟨_, rfl, by decide, _, .inl ⟨_, rfl, Json.ofText?_text writable⟩,
      .byPlace (some .null) none rfl nofun .null .unstated⟩
  exact ⟨request, outcome, calls, asks, ((answers _).1 _).2 granted,
    ((answers _).2 _).2 (.rejected (by decide) (by decide))⟩

end TokenEndpoints

end Syndication
