import Syndication.Proofs.Endings

namespace Syndication

/-- Of two times that are reached from one by adding seconds, the later one is that with more
seconds added. -/
theorem Timestamp.after_plusSeconds?_iff {t u v : Timestamp} {m n : Int}
    (added : t.plusSeconds? n = some u) (reached : t.plusSeconds? m = some v) (nonneg : 0 ≤ n)
    (nonnegToo : 0 ≤ m) : u.after v = true ↔ m < n := by
  constructor
  · intro later
    by_contra notLess
    rcases (not_lt.1 notLess).eq_or_lt with rfl | less
    · obtain rfl : u = v := Option.some.inj (added.symm.trans reached)
      rw [after, before_irrefl] at later
      cases later
    · obtain ⟨other, same, earlier⟩ := after_of_plusSeconds? reached nonneg less
      obtain rfl : u = other := Option.some.inj (added.symm.trans same)
      have impossible := before_trans later earlier
      rw [before_irrefl] at impossible
      cases impossible
  · intro less
    obtain ⟨other, same, later⟩ := after_of_plusSeconds? added nonnegToo less
    obtain rfl : v = other := Option.some.inj (reached.symm.trans same)
    exact later

namespace RenewalPolicy

open Program

/-- After these calls the token of an account expires at a known time. Compared with the time that
was read last, it outlives the buffer unless it was granted in these calls, and for no longer. -/
def Lasts (policy : RenewalPolicy) (calls : List Services.Exchange) (account : Account) : Prop :=
  ∃ expiry now, account.expiresAt = some expiry ∧
    (calls.filterMap Services.reading?).getLast? = some now ∧
    ∀ horizon, now.plusSeconds? policy.buffer = some horizon →
      (expiry.after horizon = true ↔ ∀ grant ∈ calls.filterMap Services.granted?,
        policy.buffer < (min grant.expiresIn maxTokenLifetime).toNat)

variable {policy : RenewalPolicy} {id : AccountId} {account copy : Account} {now : Timestamp}
  {store later : AccountStore} {calls more : List Services.Exchange} {token : Secret}

theorem Lasts.of_eq (lasts : policy.Lasts calls account)
    (readings : (more.filterMap Services.reading?).getLast? =
      (calls.filterMap Services.reading?).getLast?)
    (grants : more.filterMap Services.granted? = calls.filterMap Services.granted?) :
    policy.Lasts more account := by
  obtain ⟨expiry, now, expires, last, outlives⟩ := lasts
  exact ⟨expiry, now, expires, readings.trans last, grants ▸ outlives⟩

/-- A token that need not be renewed was not granted now, and outlives the buffer. -/
theorem lasts_of_needsRefresh? (kept : account.needsRefresh? policy.buffer now = some false) :
    policy.Lasts [⟨.records .now, now⟩] account := by
  obtain ⟨expiry, horizon, expires, reached, after⟩ := Account.needsRefresh?_eq_false_iff.1 kept
  refine ⟨expiry, now, expires, rfl, fun other same => ?_⟩
  obtain rfl : horizon = other := Option.some.inj (reached.symm.trans same)
  simpa [Services.granted?] using after

/-- A token that was granted outlives the buffer if it was granted for longer. -/
theorem lasts_of_applyGrant? {renewed : Account} {grant : TokenGrant} {platform : Platform}
    {refresh : Secret} {saved : Except ServiceFault Unit} (nonneg : 0 ≤ policy.buffer)
    (granted : account.applyGrant? grant now = some renewed) :
    policy.Lasts [⟨.records .now, now⟩,
      ⟨.renew platform refresh policy.limit, .answered (.ok grant)⟩,
      ⟨.saveAccount renewed, saved⟩] renewed := by
  obtain ⟨expiry, added, rfl⟩ := Option.map_eq_some_iff.1 granted
  refine ⟨expiry, now, rfl, rfl, fun horizon reached => ?_⟩
  rw [Timestamp.after_plusSeconds?_iff added reached (Int.natCast_nonneg _) nonneg]
  simp [Services.granted?]

/-- What a renewal of a stored account returns is stored. -/
theorem validTokenOf_lasts (nonneg : 0 ≤ policy.buffer) (found : store.find? id = some account)
    (plays : (policy.validTokenOf id account).run.Plays AccountStore.Answers store calls
      (.done (.ok token)) later) :
    ∃ record, later.find? id = some record ∧ record.accessToken = token ∧
      policy.Lasts calls record := by
  obtain ⟨outcome, is, ending⟩ := validTokenOf_ends Plain.answers plays trivial
  cases ending with
  | kept kept =>
    cases is
    exact ⟨account, found, rfl, lasts_of_needsRefresh? kept⟩
  | @renewed _ _ _ renewed _ due granted saved =>
    cases is
    have own : renewed.id = id :=
      (Account.id_of_applyGrant? granted).trans (AccountStore.id_of_find? found)
    exact ⟨renewed, own ▸ AccountStore.find?_of_save saved, rfl,
      lasts_of_applyGrant? nonneg granted⟩
  | _ => cases is

theorem validTokenInside_lasts (nonneg : 0 ≤ policy.buffer)
    (plays : (policy.validTokenInside id).run.Plays AccountStore.Answers store calls
      (.done (.ok token)) later) :
    ∃ record, later.find? id = some record ∧ record.accessToken = token ∧
      policy.Lasts calls record := by
  rw [validTokenInside_run] at plays
  cases plays with
  | @call _ _ answer calls _ _ _ _ answered plays =>
    match answer with
    | .error fault => cases plays
    | .ok none => cases plays
    | .ok (some account) =>
      obtain ⟨found, rfl⟩ := answered
      obtain ⟨record, stored, same, lasts⟩ := validTokenOf_lasts nonneg found.symm plays
      exact ⟨record, stored, same, lasts.of_eq rfl rfl⟩

/-- The work inside the lock is what reads, grants and saves. -/
theorem insideLock_plays {work : Action Services Secret}
    (plays : (insideLock id work).run.Plays AccountStore.Answers store calls (.done (.ok token))
      later) : ∃ lease inside,
      work.run.Plays AccountStore.Answers store inside (.done (.ok token)) later ∧
      ⟨.enter lease, ()⟩ ∈ calls ∧
      calls.filterMap Services.reading? = inside.filterMap Services.reading? ∧
      calls.filterMap Services.granted? = inside.filterMap Services.granted? := by
  rw [insideLock_run] at plays
  cases plays with
  | @call _ _ lease _ _ _ _ _ leased plays =>
    cases plays with
    | call entered plays =>
      obtain rfl := leased
      obtain rfl := entered
      obtain ⟨outcome, inside, after, last, rfl, works, cleans⟩ := plays.of_bind_done
      obtain ⟨same, rfl, onLocks⟩ := cleanUp_ends Plain.answers cleans trivial
      cases same
      exact ⟨lease, inside, works, by simp, readings_around onLocks, grants_around onLocks⟩

/-- How long a returned token lasts, for any copy at hand, any account that is stored, any time and
any answer of a token endpoint, with calls on the accounts that may fail without effect. The token
is that of the copy, if nothing but the time was read, and that of the stored account otherwise. It
has a known expiry there. This outlives the buffer, counted from the time that was read last,
exactly if the token was not granted just now for the length of the buffer or less. -/
theorem validToken_outlives_iff (nonneg : 0 ≤ policy.buffer)
    (plays : (policy.validToken copy).run.Plays AccountStore.Answers store calls
      (.done (.ok token)) later) :
    ∃ record, record.accessToken = token ∧ policy.Lasts calls record ∧
      ((record = copy ∧ ∃ now, calls = [⟨.records .now, now⟩]) ∨
        later.find? copy.id = some record ∧ ∃ lease, ⟨.enter lease, ()⟩ ∈ calls) := by
  rw [validToken_run] at plays
  cases plays with
  | @call _ _ time calls _ _ _ _ answered plays =>
    obtain rfl := answered
    dsimp only at plays
    split at plays
    · cases plays
    · obtain ⟨lease, inside, works, entered, readings, grants⟩ := insideLock_plays plays
      obtain ⟨record, stored, same, lasts⟩ := validTokenInside_lasts nonneg works
      refine ⟨record, same, lasts.of_eq ?_ ?_, .inr ⟨stored, lease, by simp [entered]⟩⟩
      · obtain ⟨_, last, _, read, _⟩ := lasts
        have first : Services.reading? ⟨.records .now, time⟩ = some time := rfl
        rw [List.filterMap_cons_some first, readings, List.getLast?_cons, read, Option.getD_some]
      · rw [List.filterMap_cons_none rfl, grants]
    · rename_i kept
      cases plays
      exact ⟨copy, rfl, lasts_of_needsRefresh? kept, .inl ⟨rfl, time, rfl⟩⟩

end RenewalPolicy

namespace Rehearsal.Cast

/-- A stage with the account whose token has to be renewed, and with an endpoint that grants one for
so many seconds. -/
def granting (seconds : UInt64) : Stage :=
  { stage [] [] with
    accounts := { rows := [expired] }
    tokenTurns := [{ outcome := .ok { accessToken := some "token-2", expiresIn := seconds } }] }

theorem granting_honest (seconds : UInt64) : (granting seconds).Honest :=
  ⟨(stage_honest [] []).plan, (stage_honest [] []).alone, rfl⟩

/-- The call for a valid token of this account. -/
def asking : Action Services Secret := engine.renewal.validToken expired

def askingCalls (seconds : UInt64) : List Services.Exchange :=
  asking.run.transcript Stage.perform (granting seconds)

theorem granting_plays {seconds : UInt64}
    (returns : ((granting seconds).act asking).1 = some (.ok ⟨"token-2"⟩)) :
    asking.run.Plays AccountStore.Answers { rows := [expired] } (askingCalls seconds)
      (.done (.ok ⟨"token-2"⟩)) ((granting seconds).act asking).2.accounts :=
  (Stage.act_plays_beside (granting_honest seconds) returns).second

end Rehearsal.Cast

namespace RenewalPolicy

open Rehearsal

/-- A token that was granted for an hour outlives the buffer of five minutes. -/
theorem validToken_outlives_hour : ∃ calls later record expiry,
    (Cast.engine.renewal.validToken Cast.expired).run.Plays AccountStore.Answers
      { rows := [Cast.expired] } calls (.done (.ok ⟨"token-2"⟩)) later ∧
    0 ≤ Cast.engine.renewal.buffer ∧ later.find? Cast.expired.id = some record ∧
    record.accessToken = ⟨"token-2"⟩ ∧ record.expiresAt = some expiry ∧
    (calls.filterMap Services.reading?).getLast? = some Cast.morning ∧
    expiry.after ⟨300, 0, by decide⟩ = true := by
  have nonneg : 0 ≤ Cast.engine.renewal.buffer := by decide
  have returns : ((Cast.granting 3600).act Cast.asking).1 = some (.ok ⟨"token-2"⟩) := by
    decide +kernel
  have plays := Cast.granting_plays returns
  obtain ⟨record, same, ⟨expiry, now, expires, last, outlives⟩, place⟩ :=
    validToken_outlives_iff nonneg plays
  have stored :
      ((Cast.granting 3600).act Cast.asking).2.accounts.find? Cast.expired.id = some record := by
    rcases place with ⟨rfl, _⟩ | ⟨stored, _⟩
    · exact absurd same (by decide +kernel)
    · exact stored
  have read : ((Cast.askingCalls 3600).filterMap Services.reading?).getLast? =
      some Cast.morning := by decide +kernel
  obtain rfl : now = Cast.morning := Option.some.inj (last.symm.trans read)
  have reached : Cast.morning.plusSeconds? Cast.engine.renewal.buffer =
      some ⟨300, 0, by decide⟩ := by decide +kernel
  have granted : (Cast.askingCalls 3600).filterMap Services.granted? = [Cast.hour] := by
    decide +kernel
  rw [granted] at outlives
  have longer : Cast.engine.renewal.buffer <
      (min Cast.hour.expiresIn maxTokenLifetime).toNat := by decide +kernel
  exact ⟨_, _, record, expiry, plays, nonneg, stored, same, expires, read,
    (outlives _ reached).2 (by simpa using longer)⟩

/-- An endpoint grants a token for one minute. It is returned, though the buffer is five minutes
long. -/
theorem returned_for_minute : ∃ calls later record expiry horizon,
    (Cast.engine.renewal.validToken Cast.expired).run.Plays AccountStore.Answers
      { rows := [Cast.expired] } calls (.done (.ok ⟨"token-2"⟩)) later ∧
    0 ≤ Cast.engine.renewal.buffer ∧ later.find? Cast.expired.id = some record ∧
    record.accessToken = ⟨"token-2"⟩ ∧ record.expiresAt = some expiry ∧
    calls.filterMap Services.reading? = [Cast.morning, Cast.morning] ∧
    Cast.morning.plusSeconds? Cast.engine.renewal.buffer = some horizon ∧
    expiry.after horizon = false := by
  have returns : ((Cast.granting 60).act Cast.asking).1 = some (.ok ⟨"token-2"⟩) := by
    decide +kernel
  have plays := Cast.granting_plays returns
  have read : (Cast.askingCalls 60).filterMap Services.reading? =
      [Cast.morning, Cast.morning] := by decide +kernel
  have stored : ((Cast.granting 60).act Cast.asking).2.accounts.find? Cast.expired.id =
      some { Cast.expired with
        accessToken := ⟨"token-2"⟩, expiresAt := some ⟨60, 0, by decide⟩ } := by
    decide +kernel
  exact ⟨_, _, _, ⟨60, 0, by decide⟩, ⟨300, 0, by decide⟩, plays, by decide, stored, rfl, rfl, read,
    by decide +kernel, by decide +kernel⟩

end RenewalPolicy

end Syndication
