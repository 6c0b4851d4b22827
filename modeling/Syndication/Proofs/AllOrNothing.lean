import Syndication.Proofs.Endings
import Syndication.Proofs.Lifetimes

namespace Syndication

namespace AccountStore

/-- A call on the accounts fails only if the store refuses it. -/
def Faultless (store : AccountStore) : (c : ServiceCall) → c.Answer → Prop
  | .getAccount _, .error _ => False
  | .saveAccount account, .error fault => store.save account = .error fault
  | _, _ => True

/-- What a store of accounts that works may answer to a call, and what becomes of it. -/
def Serves : Surroundings Services AccountStore := fun store c answer later =>
  store.Answers c answer later ∧ store.Faultless c answer

/-- A renewed account is not refused, since the account was stored. -/
theorem save_of_applyGrant? {store : AccountStore} {id : AccountId} {account renewed : Account}
    {grant : TokenGrant} {now : Timestamp} (found : store.find? id = some account)
    (granted : account.applyGrant? grant now = some renewed) :
    ∃ later, store.save renewed = .ok later := by
  have same : renewed.id = id := (Account.id_of_applyGrant? granted).trans (id_of_find? found)
  have has : store.has renewed.id = true := by rw [has, same, found, Option.isSome_some]
  exact ⟨_, by rw [save, if_pos has]⟩

end AccountStore

namespace RenewalPolicy

open Program

variable (policy : RenewalPolicy)

/-- A time was read from which the buffer, or a lifetime that was granted, reaches beyond the
calendar. -/
def LeavesCalendar (calls : List Services.Exchange) : Prop :=
  ∃ now ∈ calls.filterMap Services.reading?, now.plusSeconds? policy.buffer = none ∨
    ∃ grant ∈ calls.filterMap Services.granted?,
      now.plusSeconds? (min grant.expiresIn maxTokenLifetime).toNat = none

/-- The token of the account had to be renewed at the time that was read first. -/
def NeededFirst (account : Account) (calls : List Services.Exchange) : Prop :=
  ∃ time, (calls.filterMap Services.reading?).head? = some time ∧
    account.needsRefresh? policy.buffer time = some true

/-- The token of the account had to be renewed at the time that was read last. -/
def NeededLast (account : Account) (calls : List Services.Exchange) : Prop :=
  ∃ now, (calls.filterMap Services.reading?).getLast? = some now ∧
    account.needsRefresh? policy.buffer now = some true

/-- The token is that of the account, which did not need a renewal at the time that was read
last. -/
def Keeps (account : Account) (calls : List Services.Exchange) (token : Secret) : Prop :=
  account.accessToken = token ∧ ∃ now, (calls.filterMap Services.reading?).getLast? = some now ∧
    account.needsRefresh? policy.buffer now = some false

/-- The stored account is renewed at this time: the endpoint is asked once, with its stored refresh
token, and grants the token. In the store nothing but this account is another one, and of it nothing
but the credentials and the time of the last change. -/
structure Renewal (id : AccountId) (store : AccountStore) (calls : List Services.Exchange)
    (token : Secret) (later : AccountStore) (account : Account) (now : Timestamp)
    (refresh : Secret) (grant : TokenGrant) (expiry : Timestamp) : Prop where
  found : store.find? id = some account
  last : (calls.filterMap Services.reading?).getLast? = some now
  due : policy.IsDue account now refresh
  asked : calls.filter (·.1.isRenewal) =
    [⟨.renew account.platform refresh policy.limit, .answered (.ok grant)⟩]
  granted : grant.accessToken = token
  expires : now.plusSeconds? (min grant.expiresIn maxTokenLifetime).toNat = some expiry
  stored : later.find? id = some { account with
    accessToken := token
    expiresAt := some expiry
    refreshToken := grant.refreshToken.or account.refreshToken
    updatedAt := now }
  ids : later.rows.map (·.id) = store.rows.map (·.id)
  others : ∀ other, other ≠ id → later.find? other = store.find? other

def Renews (id : AccountId) (store : AccountStore) (calls : List Services.Exchange)
    (token : Secret) (later : AccountStore) : Prop :=
  ∃ account now refresh grant expiry,
    policy.Renewal id store calls token later account now refresh grant expiry

/-- Why a call fails with an error that found the token at hand in need of a renewal. -/
inductive Reason (policy : RenewalPolicy) (id : AccountId) (store : AccountStore)
    (calls : List Services.Exchange) : PublishError → Prop
  | unknown : store.find? id = none → Reason policy id store calls (.accountNotFound id)
  | bare {account : Account} : store.find? id = some account → policy.NeededLast account calls →
      account.usableRefreshToken? = none → Reason policy id store calls (.missingRefreshToken id)
  | refused {account : Account} {refresh : Secret} {reply : TokenReply} {error : TokenError} :
      store.find? id = some account → policy.NeededLast account calls →
      account.usableRefreshToken? = some refresh →
      calls.filter (·.1.isRenewal) = [⟨.renew account.platform refresh policy.limit, reply⟩] →
      reply.refusal? policy.limit = some error →
      Reason policy id store calls (.refreshFailed id error.kind error.message)

/-- Other calls show the same last time, and ask the token endpoints for the same. -/
structure Shows (calls more : List Services.Exchange) : Prop where
  last : (more.filterMap Services.reading?).getLast? =
    (calls.filterMap Services.reading?).getLast?
  renewals : more.filter (·.1.isRenewal) = calls.filter (·.1.isRenewal)

theorem Shows.symm {calls more : List Services.Exchange} (shows : Shows calls more) :
    Shows more calls :=
  ⟨shows.last.symm, shows.renewals.symm⟩

section

variable {policy : RenewalPolicy} {around : Surroundings Services AccountStore} {id : AccountId}
  {account copy : Account} {store later : AccountStore} {calls more : List Services.Exchange}
  {token : Secret} {error : PublishError} {outcome : Option (Except PublishError Secret)}

theorem LeavesCalendar.mono (leaves : policy.LeavesCalendar calls) (sub : calls ⊆ more) :
    policy.LeavesCalendar more := by
  obtain ⟨now, read, beyond | ⟨grant, granted, beyond⟩⟩ := leaves
  · exact ⟨now, List.filterMap_subset _ sub read, .inl beyond⟩
  · exact ⟨now, List.filterMap_subset _ sub read,
      .inr ⟨grant, List.filterMap_subset _ sub granted, beyond⟩⟩

theorem NeededLast.shown (needed : policy.NeededLast account calls) (shows : Shows calls more) :
    policy.NeededLast account more := by
  obtain ⟨now, last, due⟩ := needed
  exact ⟨now, shows.last.trans last, due⟩

theorem Keeps.shown (keeps : policy.Keeps account calls token) (shows : Shows calls more) :
    policy.Keeps account more token := by
  obtain ⟨own, now, last, kept⟩ := keeps
  exact ⟨own, now, shows.last.trans last, kept⟩

theorem Renews.shown (renews : policy.Renews id store calls token later)
    (shows : Shows calls more) : policy.Renews id store more token later := by
  obtain ⟨account, now, refresh, grant, expiry, renewal⟩ := renews
  exact ⟨account, now, refresh, grant, expiry, { renewal with
    last := shows.last.trans renewal.last
    asked := shows.renewals.trans renewal.asked }⟩

theorem Reason.shown (reason : policy.Reason id store calls error) (shows : Shows calls more) :
    policy.Reason id store more error := by
  cases reason with
  | unknown missing => exact .unknown missing
  | bare found needed bare => exact .bare found (needed.shown shows) bare
  | refused found needed usable asked refused =>
    exact .refused found (needed.shown shows) usable (shows.renewals.trans asked) refused

/-- There is one reason at most. -/
theorem Reason.unique {other : PublishError} (reason : policy.Reason id store calls error)
    (also : policy.Reason id store calls other) : error = other := by
  cases reason with
  | unknown missing =>
    cases also with
    | unknown => rfl
    | bare found => simp [missing] at found
    | refused found => simp [missing] at found
  | bare stored _ bare =>
    cases also with
    | unknown missing => simp [stored] at missing
    | bare => rfl
    | refused found _ usable =>
      obtain rfl := Option.some.inj (stored.symm.trans found)
      simp [bare] at usable
  | refused stored _ usable asked refused =>
    cases also with
    | unknown missing => simp [stored] at missing
    | bare found _ bare =>
      obtain rfl := Option.some.inj (stored.symm.trans found)
      simp [bare] at usable
    | refused found _ _ askedToo refusedToo =>
      obtain rfl := Option.some.inj (stored.symm.trans found)
      cases List.singleton_inj.1 (asked.symm.trans askedToo)
      obtain rfl := Option.some.inj (refused.symm.trans refusedToo)
      rfl

/-- One time is read. -/
theorem Ending.readings (ending : Ending policy around id account store calls outcome later) :
    ∃ now, calls.filterMap Services.reading? = [now] := by
  cases ending <;> exact ⟨_, rfl⟩

theorem Ending.leaves (ending : Ending policy around id account store calls none later) :
    policy.LeavesCalendar calls := by
  cases ending with
  | lost lost =>
    have beyond := (Account.needsRefresh?_eq_none_iff.1 lost).2
    exact ⟨_, Services.mem_readings _ _, .inl beyond⟩
  | @endless now _ grant _ endless =>
    have beyond := Option.map_eq_none_iff.1 endless
    exact ⟨now, Services.mem_readings _ _, .inr ⟨grant, by simp [Services.granted?], beyond⟩⟩

theorem Ending.unchanged (ending : Ending policy around id account store calls outcome later)
    (noToken : ∀ token, outcome ≠ some (.ok token)) : later = store := by
  cases ending with
  | renewed => exact absurd rfl (noToken _)
  | _ => rfl

theorem Ending.returned (plain : Plain around) (found : store.find? id = some account)
    (ending : Ending policy around id account store calls (some (.ok token)) later) :
    (calls.filter (·.1.isRenewal) = [] ∧ later = store ∧ policy.Keeps account calls token) ∨
      policy.Renews id store calls token later := by
  cases ending with
  | kept kept => exact .inl ⟨rfl, rfl, rfl, _, rfl, kept⟩
  | @renewed now refresh grant renewed _ due granted saved =>
    have written : store.save renewed = .ok later := plain saved
    have frame := AccountStore.Renewed.of_save found (.of_applyGrant? granted) written
    have own : renewed.id = id :=
      (Account.id_of_applyGrant? granted).trans (AccountStore.id_of_find? found)
    have stored := own ▸ AccountStore.find?_of_save written
    obtain ⟨expiry, added, rfl⟩ := Option.map_eq_some_iff.1 granted
    exact .inr ⟨account, now, refresh, grant, expiry, {
      found, due, stored
      last := rfl
      asked := rfl
      granted := rfl
      expires := added
      ids := frame.ids
      others := frame.others }⟩

/-- With a store that serves, the stored account is the reason of an error. -/
theorem Ending.reason {error : PublishError} (found : store.find? id = some account)
    (ending : Ending policy AccountStore.Serves id account store calls (some (.error error)) later) :
    policy.Reason id store calls error := by
  cases ending with
  | bare needed bare => exact .bare found ⟨_, rfl, needed⟩ bare
  | refused due refused => exact .refused found ⟨_, rfl, due.1⟩ due.2 rfl refused
  | @unsaved _ _ _ renewed fault _ granted served =>
    obtain ⟨later, accepted⟩ := AccountStore.save_of_applyGrant? found granted
    have rejected : store.save renewed = .error fault := served.2
    rw [accepted] at rejected
    cases rejected

/-- A token is returned only if there is no reason for an error. -/
theorem Ending.no_reason (found : store.find? id = some account)
    (ending : Ending policy around id account store calls (some (.ok token)) later) :
    ¬ policy.Reason id store calls error := by
  intro reason
  cases reason with
  | unknown missing => simp [found] at missing
  | bare stored needed bare =>
    obtain rfl := Option.some.inj (found.symm.trans stored)
    cases ending with
    | kept kept =>
      obtain ⟨_, ⟨⟩, needed⟩ := needed
      simp [kept] at needed
    | renewed due =>
      have usable := due.2
      simp [bare] at usable
  | refused stored needed _ asked refused =>
    obtain rfl := Option.some.inj (found.symm.trans stored)
    cases ending with
    | kept => cases asked
    | renewed =>
      cases asked
      cases refused

/-- The work on the stored account shows what the calls around it do. -/
theorem Ending.shows {cleaning : List Services.Exchange}
    (ending : Ending policy around id account store calls outcome later) (time : Timestamp)
    (lease : Lease) (onLocks : ∀ exchange ∈ cleaning, exchange.1.OnLocks) :
    Shows calls (⟨.records .now, time⟩ :: ⟨.lease id, lease⟩ :: ⟨.enter lease, ()⟩ ::
      ((⟨.getAccount id, .ok (some account)⟩ :: calls) ++ cleaning)) := by
  obtain ⟨now, readings⟩ := ending.readings
  constructor
  case last =>
    rw [List.filterMap_cons_some (Services.reading?_now time), readings_around onLocks,
      List.filterMap_cons_none rfl, readings]
    rfl
  case renewals =>
    rw [List.filter_cons_of_neg (by simp [ServiceCall.isRenewal]), renewals_around onLocks,
      List.filter_cons_of_neg (by simp [ServiceCall.isRenewal])]

theorem Ends.leaves (ends : Ends policy around copy store calls none later) :
    policy.LeavesCalendar calls := by
  cases ends with
  | lost lost =>
    have beyond := (Account.needsRefresh?_eq_none_iff.1 lost).2
    exact ⟨_, Services.mem_readings _ _, .inl beyond⟩
  | inside _ ending _ =>
    cases ending with
    | read _ ending =>
      refine ending.leaves.mono fun exchange member => ?_
      simp [member]

/-- Without a token, the store is as it was. -/
theorem Ends.unchanged (ends : Ends policy around copy store calls outcome later)
    (noToken : ∀ token, outcome ≠ some (.ok token)) : later = store := by
  cases ends with
  | lost | kept => rfl
  | inside _ ending _ =>
    cases ending with
    | unread | unknown => rfl
    | read _ ending => exact ending.unchanged noToken

theorem Ends.returned (plain : Plain around)
    (ends : Ends policy around copy store calls (some (.ok token)) later) :
    (calls.filter (·.1.isRenewal) = [] ∧ later = store ∧ (policy.Keeps copy calls token ∨
      ∃ account, store.find? copy.id = some account ∧ policy.Keeps account calls token)) ∨
    policy.Renews copy.id store calls token later := by
  cases ends with
  | kept kept => exact .inl ⟨rfl, rfl, .inl ⟨rfl, _, rfl, kept⟩⟩
  | @inside time lease _ _ _ _ _ ending onLocks =>
    cases ending with
    | @read account calls _ _ found ending =>
      have shows := ending.shows time lease onLocks
      rcases ending.returned plain found with ⟨unasked, same, keeps⟩ | renews
      · exact .inl ⟨shows.renewals.trans unasked, same, .inr ⟨account, found, keeps.shown shows⟩⟩
      · exact .inr (renews.shown shows)

theorem Ends.reason
    (ends : Ends policy AccountStore.Serves copy store calls (some (.error error)) later) :
    policy.NeededFirst copy calls ∧ policy.Reason copy.id store calls error := by
  cases ends with
  | @inside time lease _ _ _ _ needed ending onLocks =>
    refine ⟨⟨_, rfl, needed⟩, ?_⟩
    cases ending with
    | unread served => exact served.2.elim
    | unknown missing => exact .unknown missing
    | read found ending => exact (ending.reason found).shown (ending.shows time lease onLocks)

theorem Ends.no_reason (ends : Ends policy around copy store calls (some (.ok token)) later)
    (needed : policy.NeededFirst copy calls) : ¬ policy.Reason copy.id store calls error := by
  cases ends with
  | kept kept =>
    obtain ⟨_, ⟨⟩, needed⟩ := needed
    simp [kept] at needed
  | @inside time lease _ _ _ _ _ ending onLocks =>
    cases ending with
    | read found ending =>
      intro reason
      exact ending.no_reason found (reason.shown (ending.shows time lease onLocks).symm)

/-- With a store that serves, the errors are those for which there is a reason. -/
theorem Ends.error_iff {outcome : Except PublishError Secret}
    (ends : Ends policy AccountStore.Serves copy store calls (some outcome) later) :
    outcome = .error error ↔
      policy.NeededFirst copy calls ∧ policy.Reason copy.id store calls error := by
  constructor
  · rintro rfl
    exact ends.reason
  · rintro ⟨needed, reason⟩
    cases outcome with
    | ok token => exact absurd reason (ends.no_reason needed)
    | error other => rw [ends.reason.2.unique reason]

theorem Serves.plain : Plain AccountStore.Serves := fun served => served.1

/-- A call for a valid token does all of its work on the store, or nothing. Take any copy of an
account, any store, and any answers of the token endpoints; a call on the accounts may fail without
effect. The call ends, if no time leaves the calendar. With an error, the store is as it was. With a
token, no endpoint was asked, the store is as it was, and the token is that of the copy or of the
stored account, which did not need a renewal, or else the token was granted to the stored account,
which is stored with it. If the store works, the errors are exactly those for which there is a
reason. -/
theorem validToken_allOrNothing {rest : Program Services (Except PublishError Secret)}
    (plays : (policy.validToken copy).run.Plays AccountStore.Answers store calls rest later)
    (isOver : rest.IsOver) :
    ((∃ outcome, rest = .done outcome) ∨ rest = .overflow ∧ policy.LeavesCalendar calls) ∧
    (∀ error, rest = .done (.error error) → later = store) ∧
    (∀ token, rest = .done (.ok token) →
      (calls.filter (·.1.isRenewal) = [] ∧ later = store ∧ (policy.Keeps copy calls token ∨
        ∃ account, store.find? copy.id = some account ∧ policy.Keeps account calls token)) ∨
      policy.Renews copy.id store calls token later) ∧
    ((policy.validToken copy).run.Plays AccountStore.Serves store calls rest later →
      ∀ outcome, rest = .done outcome → ∀ error, outcome = .error error ↔
        policy.NeededFirst copy calls ∧ policy.Reason copy.id store calls error) := by
  obtain ⟨outcome, rfl, ends⟩ := validToken_ends Plain.answers plays isOver
  cases outcome with
  | none =>
    refine ⟨.inr ⟨rfl, ends.leaves⟩, ?_, ?_, ?_⟩ <;> simp [ended]
  | some outcome =>
    refine ⟨.inl ⟨outcome, rfl⟩, ?_, ?_, ?_⟩
    · rintro error ⟨⟩
      exact ends.unchanged (by simp)
    · rintro token ⟨⟩
      exact ends.returned Plain.answers
    · rintro serves _ ⟨⟩ error
      exact (validToken_returns Serves.plain serves).error_iff

end

end RenewalPolicy

namespace AccountStore

def fares : (c : ServiceCall) → c.Answer → Bool
  | .getAccount _, answer => answer.isOk
  | .saveAccount _, answer => answer.isOk
  | _, _ => true

theorem faultless_of_fares {store : AccountStore} {c : ServiceCall} {answer : c.Answer}
    (fares : fares c answer = true) : store.Faultless c answer := by
  cases c with
  | getAccount | saveAccount =>
    cases answer with
    | ok _ => trivial
    | error fault => cases fares
  | _ => trivial

end AccountStore

namespace Rehearsal.Stage

def faresWithAccounts (c : ServiceCall) (stage : Stage) : Bool :=
  AccountStore.fares c (stage.perform c).1

/-- What is carried out on an honest stage, and fares well, is played with accounts that work. -/
theorem act_servesAccounts {α : Type} {stage : Stage} (honest : stage.Honest)
    {action : Action Services α} {outcome : Except PublishError α}
    (is : (stage.act action).1 = some outcome)
    (fares : action.run.passes Stage.perform Stage.faresWithAccounts stage = true) :
    action.run.Plays AccountStore.Serves stage.accounts
      (action.run.transcript Stage.perform stage) (.done outcome)
      (stage.act action).2.accounts := by
  have imitates (c : ServiceCall) (stage : Stage) (honest : stage.Honest)
      (fares : stage.faresWithAccounts c = true) :
      stage.accounts.Serves c (stage.perform c).1 (stage.perform c).2.accounts ∧
        (stage.perform c).2.Honest :=
    ⟨⟨honest.answers c, AccountStore.faultless_of_fares fares⟩, (stage.perform_imitates c honest).2⟩
  have plays := (Program.plays_run_of_passes imitates action.run honest fares).1
  rw [act] at is ⊢
  rwa [is] at plays

end Rehearsal.Stage

namespace RenewalPolicy

open Rehearsal

/-- A store that works, and an endpoint that grants a token for an hour. The token is returned, and
stored. -/
theorem validToken_allOrNothing_granted : ∃ calls later,
    (Cast.engine.renewal.validToken Cast.expired).run.Plays AccountStore.Answers
      { rows := [Cast.expired] } calls (.done (.ok ⟨"token-2"⟩)) later ∧
    (Cast.engine.renewal.validToken Cast.expired).run.Plays AccountStore.Serves
      { rows := [Cast.expired] } calls (.done (.ok ⟨"token-2"⟩)) later ∧
    Cast.engine.renewal.Renews Cast.expired.id { rows := [Cast.expired] } calls ⟨"token-2"⟩ later ∧
    Cast.engine.renewal.NeededFirst Cast.expired calls ∧
    ∀ error, ¬ Cast.engine.renewal.Reason Cast.expired.id { rows := [Cast.expired] } calls
      error := by
  have returns : ((Cast.granting 3600).act Cast.asking).1 = some (.ok ⟨"token-2"⟩) := by
    decide +kernel
  have plays := Cast.granting_plays returns
  have serves := Stage.act_servesAccounts (Cast.granting_honest 3600) returns (by decide +kernel)
  obtain ⟨_, _, returned, errors⟩ := validToken_allOrNothing plays trivial
  have asked : (Cast.askingCalls 3600).filter (·.1.isRenewal) ≠ [] := by
    have one : ((Cast.askingCalls 3600).filter (·.1.isRenewal)).length = 1 := by decide +kernel
    intro none
    rw [none] at one
    cases one
  have renews := (returned _ rfl).resolve_left fun same => asked same.1
  have needed : Cast.engine.renewal.NeededFirst Cast.expired (Cast.askingCalls 3600) :=
    ⟨Cast.morning, by decide +kernel, by decide +kernel⟩
  refine ⟨_, _, plays, serves, renews, needed, fun error reason => ?_⟩
  cases (errors serves _ rfl error).2 ⟨needed, reason⟩

end RenewalPolicy

end Syndication
