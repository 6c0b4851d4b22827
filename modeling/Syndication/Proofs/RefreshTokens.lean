import Syndication.Proofs.AllOrNothing
import Syndication.Proofs.JsonText
import Syndication.Token.Endpoint

namespace Syndication

/-- An account has a refresh token unless it is missing or empty. -/
theorem Account.hasRefreshToken_iff {account : Account} : account.hasRefreshToken = true ↔
    ∃ token, account.refreshToken = some token ∧ token ≠ ⟨""⟩ := by
  have filled (token : Secret) : (!token.expose.isEmpty) = true ↔ token ≠ ⟨""⟩ := by
    obtain ⟨text⟩ := token
    simp
  rw [hasRefreshToken, usableRefreshToken?, Option.isSome_iff_exists]
  simp only [Option.filter_eq_some_iff, filled]

namespace TokenEndpoints

/-- The endpoint is asked to renew the token for a platform, replies, and thus grants. -/
def Grants (endpoints : TokenEndpoints) (platform : Platform) (refresh : Secret)
    (reply : Http.Reply) (grant : TokenGrant) : Prop :=
  ∃ client, endpoints.client? platform = some client ∧
    (endpoints.renew platform refresh).Follows [⟨.send (request client refresh), .ok reply⟩]
      (.done (.ok grant))

/-- The refresh token that a reply rotates in. -/
def rotated? (reply : Http.Reply) : Option Secret :=
  (grantOf reply).toOption.bind (·.refreshToken)

variable {endpoints : TokenEndpoints} {platform : Platform} {refresh : Secret} {reply : Http.Reply}
  {grant : TokenGrant}

theorem renew_eq {client : OAuthClient} (registered : endpoints.client? platform = some client) :
    endpoints.renew platform refresh = (Program.ask (I := Web) (.send (request client refresh))).bind
      fun
      | .ok reply => .done (grantOf reply)
      | .error fault => .done (.error (unreachable fault)) := by
  unfold renew
  split
  · rename_i missing
    cases registered.symm.trans missing
  · rename_i other found
    obtain rfl : client = other := Option.some.inj (registered.symm.trans found)
    rfl

/-- The endpoint of a registered platform grants what its reply says. -/
theorem grants_iff : endpoints.Grants platform refresh reply grant ↔
    (∃ client, endpoints.client? platform = some client) ∧ grantOf reply = .ok grant := by
  constructor
  · rintro ⟨client, registered, follows⟩
    rw [renew_eq registered] at follows
    cases follows with
    | call follows =>
      have same : Program.done (.ok grant) = Program.done (I := Web) (grantOf reply) :=
        follows.eq_of_nil
      exact ⟨⟨client, registered⟩, (Program.done.inj same).symm⟩
  · rintro ⟨⟨client, registered⟩, granted⟩
    refine ⟨client, registered, ?_⟩
    rw [renew_eq registered, ← granted]
    exact .call (.stop _)

theorem Grants.rotated?_eq (grants : endpoints.Grants platform refresh reply grant) :
    rotated? reply = grant.refreshToken := by
  rw [rotated?, (grants_iff.1 grants).2]
  rfl

/-- Calls for valid tokens, one after the other. Among them, those that renewed the account with
this identifier had these replies. -/
inductive Series (endpoints : TokenEndpoints) (id : AccountId) (store : AccountStore) :
    List Http.Reply → AccountStore → Prop
  | none : Series endpoints id store [] store
  | renewed {policy : RenewalPolicy} {copy : Account} {calls : List Services.Exchange}
      {token refresh : Secret} {platform : Platform} {grant : TokenGrant} {reply : Http.Reply}
      {replies : List Http.Reply} {mid later : AccountStore} :
      Series endpoints id store replies mid → copy.id = id →
      (policy.validToken copy).run.Plays AccountStore.Answers mid calls (.done (.ok token)) later →
      ⟨.renew platform refresh policy.limit, .answered (.ok grant)⟩ ∈ calls →
      endpoints.Grants platform refresh reply grant →
      Series endpoints id store (replies ++ [reply]) later
  /-- A call for another account, a call without a token, or one that asked no endpoint. -/
  | other {policy : RenewalPolicy} {copy : Account} {calls : List Services.Exchange}
      {rest : Program Services (Except PublishError Secret)} {replies : List Http.Reply}
      {mid later : AccountStore} :
      Series endpoints id store replies mid →
      (policy.validToken copy).run.Plays AccountStore.Answers mid calls rest later → rest.IsOver →
      (copy.id = id → (∀ token, rest ≠ .done (.ok token)) ∨
        calls.filter (·.1.isRenewal) = []) →
      Series endpoints id store replies later

end TokenEndpoints

namespace RenewalPolicy

variable {policy : RenewalPolicy} {copy : Account} {id : AccountId} {store later : AccountStore}
  {calls : List Services.Exchange} {token refresh : Secret} {platform : Platform}
  {grant : TokenGrant} {outcome : Option (Except PublishError Secret)}

/-- A call for a valid token changes nothing of an account that it does not renew. -/
theorem Ends.find?_eq (ends : Ends policy AccountStore.Answers copy store calls outcome later)
    (apart : copy.id = id → (∀ token, outcome ≠ some (.ok token)) ∨
      calls.filter (·.1.isRenewal) = []) : later.find? id = store.find? id := by
  by_cases returned : ∃ token, outcome = some (.ok token)
  · obtain ⟨token, rfl⟩ := returned
    rcases ends.returned Plain.answers with ⟨_, same, _⟩ | renews
    · rw [same]
    · obtain ⟨_, _, _, _, _, renewal⟩ := renews
      refine renewal.others id fun same => ?_
      rcases apart same.symm with noToken | unasked
      · exact noToken token rfl
      · cases unasked.symm.trans renewal.asked
  · rw [ends.unchanged fun token same => returned ⟨token, same⟩]

/-- A renewal that returns a token stores the refresh token that was rotated in, if there is one. -/
theorem Ends.refreshToken (ends : Ends policy AccountStore.Answers copy store calls
      (some (.ok token)) later)
    (asked : ⟨.renew platform refresh policy.limit, .answered (.ok grant)⟩ ∈ calls) :
    ∃ account row, store.find? copy.id = some account ∧ later.find? copy.id = some row ∧
      row.refreshToken = grant.refreshToken.or account.refreshToken := by
  have among : ⟨.renew platform refresh policy.limit, .answered (.ok grant)⟩ ∈
      calls.filter (·.1.isRenewal) := List.mem_filter.2 ⟨asked, rfl⟩
  rcases ends.returned Plain.answers with ⟨unasked, _⟩ | renews
  · rw [unasked] at among
    cases among
  · obtain ⟨account, _, _, _, _, renewal⟩ := renews
    rw [renewal.asked, List.mem_singleton] at among
    cases among
    exact ⟨account, _, renewal.found, renewal.stored, rfl⟩

end RenewalPolicy

namespace TokenEndpoints.Series

open RenewalPolicy

variable {endpoints : TokenEndpoints} {id : AccountId} {store later : AccountStore}
  {replies : List Http.Reply} {account : Account}

/-- The refresh token is the last one that was rotated in, or else the first one. -/
theorem refreshToken (series : endpoints.Series id store replies later)
    (found : store.find? id = some account) : ∃ row, later.find? id = some row ∧
      row.refreshToken = (replies.filterMap rotated?).getLast?.or account.refreshToken := by
  induction series with
  | none => exact ⟨account, found, rfl⟩
  | @renewed policy copy calls token refresh platform grant reply replies mid later _ own plays
      asked grants ih =>
    subst own
    obtain ⟨row, stored, kept⟩ := ih
    have ends := validToken_returns Plain.answers plays
    obtain ⟨before, after, had, has, renewed⟩ := ends.refreshToken asked
    obtain rfl : row = before := Option.some.inj (stored.symm.trans had)
    refine ⟨after, has, ?_⟩
    rw [renewed, kept, List.filterMap_append, List.getLast?_append, Option.or_assoc,
      ← grants.rotated?_eq]
    cases is : rotated? reply <;> simp [is]
  | @other policy copy calls rest replies mid later _ plays isOver apart ih =>
    obtain ⟨row, stored, kept⟩ := ih
    obtain ⟨outcome, rfl, ends⟩ := validToken_ends Plain.answers plays isOver
    have same : later.find? id = mid.find? id := by
      refine ends.find?_eq fun own => (apart own).imp_left fun noToken token is => ?_
      subst is
      exact noToken token rfl
    exact ⟨row, same.trans stored, kept⟩

/-- When a refresh token is kept. Take any calls for valid tokens, one after the other, with any
copies, any policies, any answers and any times, and a stored account that has a refresh token at
first. Whatever its renewals were replied, the refresh token that is stored after them is the last
one that was rotated in, or else the first one. Then the account has a refresh token exactly if the
last one that was rotated in is not empty. -/
theorem refreshToken_kept_iff (series : endpoints.Series id store replies later)
    (found : store.find? id = some account) (usable : account.hasRefreshToken = true) :
    ∃ row, later.find? id = some row ∧
      row.refreshToken = (replies.filterMap rotated?).getLast?.or account.refreshToken ∧
      (row.hasRefreshToken = true ↔ (replies.filterMap rotated?).getLast? ≠ some ⟨""⟩) := by
  obtain ⟨row, stored, kept⟩ := series.refreshToken found
  refine ⟨row, stored, kept, ?_⟩
  rw [Account.hasRefreshToken_iff, kept]
  cases (replies.filterMap rotated?).getLast? with
  | none => simpa using Account.hasRefreshToken_iff.1 usable
  | some rotated => simp

end TokenEndpoints.Series

namespace Rehearsal.Cast

def tokenEndpoints : TokenEndpoints :=
  ({} : TokenEndpoints).register .youtube ⟨"https://oauth.test/token", "client-1", ⟨"secret-1"⟩⟩

/-- A reply that grants a token and rotates in a refresh token. -/
def rotation (refresh : String) : Http.Reply where
  status := 200
  body := .text (Json.obj
    [("access_token", .str "token-2"), ("refresh_token", .str refresh)]).text

theorem grantOf_rotation (refresh : String) : TokenEndpoints.grantOf (rotation refresh) =
    .ok ⟨⟨"token-2"⟩, TokenEndpoints.defaultLifetime, some ⟨refresh⟩⟩ := by
  have writable : Json.Writable (.obj
      [("access_token", .str "token-2"), ("refresh_token", .str refresh)]) := by
    simp [Json.Writable, Json.FieldsWritable]
  have read : (rotation refresh).json? = some (.obj
      [("access_token", .str "token-2"), ("refresh_token", .str refresh)]) :=
    Json.ofText?_text writable
  have success : (rotation refresh).isSuccess = true := rfl
  rw [TokenEndpoints.grantOf, if_pos success, read]
  rfl

theorem rotated?_rotation (refresh : String) :
    TokenEndpoints.rotated? (rotation refresh) = some ⟨refresh⟩ := by
  rw [TokenEndpoints.rotated?, grantOf_rotation]
  rfl

/-- A stage with the account whose token has to be renewed, and with an endpoint that grants a token
and rotates in a refresh token. -/
def rotatingIn (refresh : String) : Stage :=
  { granting 3600 with
    tokenTurns :=
      [{ outcome := .ok { accessToken := some "token-2", refreshToken := some refresh } }] }

theorem rotatingIn_series (refresh : String) : tokenEndpoints.Series expired.id
    { rows := [expired] } [rotation refresh] ((rotatingIn refresh).act asking).2.accounts := by
  have honest : (rotatingIn refresh).Honest :=
    ⟨(granting_honest 3600).plan, (granting_honest 3600).alone, rfl⟩
  have returns : ((rotatingIn refresh).act asking).1 = some (.ok ⟨"token-2"⟩) := rfl
  have plays := (Stage.act_plays_beside honest returns).second
  have asked : ⟨.renew .youtube ⟨"refresh-1"⟩ engine.renewal.limit,
      .answered (.ok ⟨⟨"token-2"⟩, TokenEndpoints.defaultLifetime, some ⟨refresh⟩⟩)⟩ ∈
        asking.run.transcript Stage.perform (rotatingIn refresh) :=
    List.mem_of_getElem? (i := 5) rfl
  have registered : ∃ client, tokenEndpoints.client? .youtube = some client := ⟨_, rfl⟩
  have granted := grantOf_rotation refresh
  exact .renewed .none rfl plays asked (TokenEndpoints.grants_iff.2 ⟨registered, granted⟩)

end Rehearsal.Cast

namespace TokenEndpoints.Series

open Rehearsal

/-- An endpoint rotates in a refresh token, and this one is stored. -/
theorem refreshToken_kept_rotated : ∃ replies later row,
    Cast.tokenEndpoints.Series Cast.expired.id { rows := [Cast.expired] } replies later ∧
    Cast.expired.hasRefreshToken = true ∧
    replies.filterMap rotated? = [⟨"refresh-2"⟩] ∧ later.find? Cast.expired.id = some row ∧
    row.refreshToken = some ⟨"refresh-2"⟩ ∧ row.hasRefreshToken = true := by
  have series := Cast.rotatingIn_series "refresh-2"
  have usable : Cast.expired.hasRefreshToken = true := by decide
  have rotated : [Cast.rotation "refresh-2"].filterMap rotated? = [⟨"refresh-2"⟩] :=
    List.filterMap_cons_some (Cast.rotated?_rotation "refresh-2")
  obtain ⟨row, stored, kept, has⟩ := series.refreshToken_kept_iff rfl usable
  rw [rotated] at kept has
  exact ⟨_, _, row, series, usable, rotated, stored, kept, has.2 (by decide)⟩

/-- An endpoint rotates in an empty refresh token with a reply that is a success. The token that the
account had is lost, and the account has none. -/
theorem refreshToken_lost_to_empty : ∃ reply later row,
    Cast.tokenEndpoints.Series Cast.expired.id { rows := [Cast.expired] } [reply] later ∧
    reply.isSuccess = true ∧ Cast.expired.hasRefreshToken = true ∧
    later.find? Cast.expired.id = some row ∧ row.hasRefreshToken = false := by
  have usable : Cast.expired.hasRefreshToken = true := by decide
  exact ⟨_, _, _, Cast.rotatingIn_series "", rfl, usable, rfl, by decide⟩

end TokenEndpoints.Series

end Syndication
