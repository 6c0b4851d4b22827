import Syndication.Proofs.AllOrNothing
import Syndication.Proofs.Calendar
import Syndication.Settings.Engine

namespace Syndication

namespace Timestamp

variable {t u : Timestamp} {n : Int}

/-- The year in which a time lies. -/
def year (t : Timestamp) : Int := (CivilDate.ofDays (t.seconds / 86400)).year

theorem year_iff : 1970 ≤ t.year ∧ t.year ≤ 9999 ↔ 0 ≤ t.seconds ∧ t.seconds ≤ 253402300799 := by
  have first : CivilDate.newYear 1970 = 0 := by decide
  have last : CivilDate.newYear (9999 + 1) = 2932897 := by decide
  rw [year, CivilDate.le_year_ofDays_iff, CivilDate.year_ofDays_le_iff, first, last]
  omega

theorem plusSeconds?_zero (t : Timestamp) : t.plusSeconds? 0 = some t := by
  unfold plusSeconds?
  cases leap : t.inLeapSecond <;> simp [of?_eq_some_iff]

theorem exists_plusSeconds? (nonneg : 0 ≤ n) (within : t.seconds + n ≤ 8210266876799) :
    ∃ u, t.plusSeconds? n = some u := by
  obtain ⟨lower, upper, nanos⟩ := t.inCalendar
  unfold plusSeconds?
  cases leap : t.inLeapSecond with
  | false =>
    simp only [inLeapSecond, decide_eq_false_iff_not, not_le] at leap
    exact ⟨⟨t.seconds + n, t.nanos, by omega, within, .inl leap⟩, by simp [of?_eq_some_iff]⟩
  | true =>
    rcases nonneg.eq_or_lt with rfl | positive
    · exact ⟨t, by simp⟩
    · have shortened : t.nanos - nanosPerSecond < nanosPerSecond := by
        simp only [nanosPerSecond] at nanos ⊢
        omega
      exact ⟨⟨t.seconds + n, t.nanos - nanosPerSecond, by omega, within, .inl shortened⟩,
        by simp [positive, of?_eq_some_iff]⟩

/-- What is after a time that lies ahead is after the time now. -/
theorem after_of_after_plusSeconds? {v : Timestamp} (added : t.plusSeconds? n = some u)
    (nonneg : 0 ≤ n) (later : v.after u = true) : v.after t = true := by
  rcases nonneg.eq_or_lt with rfl | positive
  · rw [plusSeconds?_zero] at added
    obtain rfl := Option.some.inj added
    exact later
  · obtain ⟨same, zero, ahead⟩ := after_of_plusSeconds? added le_rfl positive
    rw [plusSeconds?_zero] at zero
    obtain rfl := Option.some.inj zero
    exact before_trans ahead later

end Timestamp

namespace RenewalPolicy

open Program

/-- Which account is looked at last, and when: the copy at hand, if nothing but the time was read,
and the stored account otherwise. -/
inductive LooksAt (copy : Account) (store : AccountStore) :
    List Services.Exchange → Account → Timestamp → Prop
  | copy {now : Timestamp} : LooksAt copy store [⟨.records .now, now⟩] copy now
  | stored {calls : List Services.Exchange} {account : Account} {now : Timestamp} :
      (∃ lease, ⟨.enter lease, ()⟩ ∈ calls) → store.find? copy.id = some account →
      (calls.filterMap Services.reading?).getLast? = some now →
      LooksAt copy store calls account now

/-- Whoever calls for a valid token in the years 1970 to 9999, no time leaves the calendar, and the
token of an account is used without a renewal only if it has not expired. -/
def IsSafe (policy : RenewalPolicy) : Prop :=
  ∀ copy store calls rest later,
    (policy.validToken copy).run.Plays AccountStore.Answers store calls rest later → rest.IsOver →
    (∀ time ∈ calls.filterMap Services.reading?, 1970 ≤ time.year ∧ time.year ≤ 9999) →
    rest ≠ .overflow ∧ ∀ token, rest = .done (.ok token) →
      calls.filter (·.1.isRenewal) = [] → ∃ account now expiry,
        LooksAt copy store calls account now ∧ account.accessToken = token ∧
        account.expiresAt = some expiry ∧ expiry.after now = true

/-- From the last second of the year 9999 to the last one of the calendar. -/
def longestBuffer : Int := 8210266876799 - 253402300799

variable {policy : RenewalPolicy} {copy account : Account} {now : Timestamp}
  {store later : AccountStore} {calls : List Services.Exchange} {token : Secret}

theorem Ends.looksAt (ends : Ends policy AccountStore.Answers copy store calls (some (.ok token))
    later) (unasked : calls.filter (·.1.isRenewal) = []) :
    ∃ account now, LooksAt copy store calls account now ∧ account.accessToken = token ∧
      account.needsRefresh? policy.buffer now = some false := by
  cases ends with
  | kept kept => exact ⟨copy, _, .copy, rfl, kept⟩
  | @inside time lease _ _ _ _ _ ending onLocks =>
    cases ending with
    | @read account _ _ _ found ending =>
      have shows := ending.shows time lease onLocks
      rcases ending.returned Plain.answers found with ⟨_, _, keeps⟩ | renews
      · obtain ⟨own, now, last, kept⟩ := keeps.shown shows
        exact ⟨account, now, .stored ⟨lease, by simp⟩ found last, own, kept⟩
      · obtain ⟨_, _, _, _, _, renewal⟩ := renews.shown shows
        cases unasked.symm.trans renewal.asked

/-- A token that needs no renewal has not expired, since the buffer lies ahead. -/
theorem exists_expiry_of_needsRefresh? (nonneg : 0 ≤ policy.buffer)
    (kept : account.needsRefresh? policy.buffer now = some false) :
    ∃ expiry, account.expiresAt = some expiry ∧ expiry.after now = true := by
  obtain ⟨expiry, _, expires, reached, later⟩ := Account.needsRefresh?_eq_false_iff.1 kept
  exact ⟨expiry, expires, Timestamp.after_of_after_plusSeconds? reached nonneg later⟩

theorem toNat_min_maxTokenLifetime_le (seconds : UInt64) :
    (min seconds maxTokenLifetime).toNat ≤ 31622400 := by
  have cut : min seconds maxTokenLifetime =
      if seconds ≤ maxTokenLifetime then seconds else maxTokenLifetime := rfl
  rw [cut]
  split
  · rename_i short
    exact UInt64.le_iff_toNat_le.1 short
  · decide

/-- A lifetime that is accepted does not reach beyond the calendar, and neither does the buffer. -/
theorem not_leavesCalendar (nonneg : 0 ≤ policy.buffer) (short : policy.buffer ≤ longestBuffer)
    (years : ∀ time ∈ calls.filterMap Services.reading?, 1970 ≤ time.year ∧ time.year ≤ 9999) :
    ¬ policy.LeavesCalendar calls := by
  rintro ⟨now, read, beyond⟩
  have bounds := Timestamp.year_iff.1 (years now read)
  unfold longestBuffer at short
  rcases beyond with beyond | ⟨grant, granted, beyond⟩
  · obtain ⟨horizon, reached⟩ := now.exists_plusSeconds? nonneg (by omega)
    simp [reached] at beyond
  · have capped := toNat_min_maxTokenLifetime_le grant.expiresIn
    obtain ⟨expiry, reached⟩ := now.exists_plusSeconds?
      (Int.natCast_nonneg (min grant.expiresIn maxTokenLifetime).toNat) (by omega)
    simp [reached] at beyond

theorem isSafe_of_short (nonneg : 0 ≤ policy.buffer) (short : policy.buffer ≤ longestBuffer) :
    policy.IsSafe := by
  intro copy store calls rest later plays isOver years
  obtain ⟨outcome, rfl, ends⟩ := validToken_ends Plain.answers plays isOver
  cases outcome with
  | none => exact absurd ends.leaves (not_leavesCalendar nonneg short years)
  | some outcome =>
    refine ⟨by simp [ended], ?_⟩
    rintro token ⟨⟩ unasked
    obtain ⟨account, now, looks, own, kept⟩ := ends.looksAt unasked
    obtain ⟨expiry, expires, later⟩ := exists_expiry_of_needsRefresh? nonneg kept
    exact ⟨account, now, expiry, looks, own, expires, later⟩

theorem plays_of_lost (lost : copy.needsRefresh? policy.buffer now = none) :
    (policy.validToken copy).run.Plays AccountStore.Answers store [⟨.records .now, now⟩] .overflow
      store := by
  rw [validToken_run]
  refine .call rfl ?_
  simp only [lost]
  exact .stop _ _

theorem plays_of_kept (kept : copy.needsRefresh? policy.buffer now = some false) :
    (policy.validToken copy).run.Plays AccountStore.Answers store [⟨.records .now, now⟩]
      (.done (.ok copy.accessToken)) store := by
  rw [validToken_run]
  refine .call rfl ?_
  simp only [kept]
  exact .stop _ _

/-- A buffer is not safe that leaves the calendar from some time on. -/
theorem not_isSafe_of_lost (years : 1970 ≤ now.year ∧ now.year ≤ 9999)
    (lost : now.plusSeconds? policy.buffer = none) : ¬ policy.IsSafe := by
  intro safe
  let copy : Account := { Rehearsal.Cast.account with expiresAt := some now }
  have unknown : copy.needsRefresh? policy.buffer now = none :=
    Account.needsRefresh?_eq_none_iff.2 ⟨rfl, lost⟩
  obtain ⟨returns, _⟩ :=
    safe copy {} _ _ _ (plays_of_lost unknown) trivial (List.forall_mem_singleton.2 years)
  exact returns rfl

/-- A buffer is not safe that leads back from some time, since the token of an account is used that
expires then. -/
theorem not_isSafe_of_back {before : Timestamp} (years : 1970 ≤ now.year ∧ now.year ≤ 9999)
    (reached : now.plusSeconds? policy.buffer = some before) (back : now.after before = true) :
    ¬ policy.IsSafe := by
  intro safe
  let copy : Account := { Rehearsal.Cast.account with expiresAt := some now }
  have kept : copy.needsRefresh? policy.buffer now = some false :=
    Account.needsRefresh?_eq_false_iff.2 ⟨now, before, rfl, reached, back⟩
  obtain ⟨_, lasting⟩ :=
    safe copy {} _ _ _ (plays_of_kept kept) trivial (List.forall_mem_singleton.2 years)
  obtain ⟨account, time, expiry, looks, _, expires, later⟩ := lasting _ rfl rfl
  cases looks with
  | copy =>
    obtain rfl : now = expiry := Option.some.inj expires
    rw [Timestamp.after, Timestamp.before_irrefl] at later
    cases later
  | stored entered =>
    obtain ⟨lease, entered⟩ := entered
    simp at entered

theorem isSafe_iff : policy.IsSafe ↔ 0 ≤ policy.buffer ∧ policy.buffer ≤ longestBuffer := by
  constructor
  · intro safe
    let first : Timestamp := ⟨0, 0, by decide⟩
    let last : Timestamp := ⟨253402300799, 0, by decide⟩
    constructor
    · by_contra negative
      cases reached : first.plusSeconds? policy.buffer with
      | none => exact not_isSafe_of_lost (Timestamp.year_iff.2 (by decide)) reached safe
      | some before =>
        have back := (Timestamp.seconds_of_plusSeconds? rfl reached).1
        have earlier : before.seconds < first.seconds := by omega
        exact not_isSafe_of_back (Timestamp.year_iff.2 (by decide)) reached
          (by simp [Timestamp.after, Timestamp.before, earlier]) safe
    · by_contra long
      cases reached : last.plusSeconds? policy.buffer with
      | none => exact not_isSafe_of_lost (Timestamp.year_iff.2 (by decide)) reached safe
      | some beyond =>
        have ahead := (Timestamp.seconds_of_plusSeconds? rfl reached).1
        have within := beyond.inCalendar.2.1
        unfold longestBuffer at long
        have bound : last.seconds = 253402300799 := rfl
        omega
  · rintro ⟨nonneg, short⟩
    exact isSafe_of_short nonneg short

end RenewalPolicy

namespace EngineSettings

open RenewalPolicy

/-- There is a policy for the settings, and its buffer is safe. -/
def IsSafe (settings : EngineSettings) : Prop :=
  ∃ policy, settings.renewal? = some policy ∧ policy.IsSafe

/-- Which buffers are safe. Settings are accepted or not whatever their buffer is, so that every
buffer is accepted in some. It is safe exactly if it does not reach beyond the calendar in the last
second of the year 9999. -/
theorem refreshBuffer_safe_iff (settings : EngineSettings) :
    (∀ buffer, { settings with refreshBuffer := buffer }.validate = settings.validate) ∧
    (settings.IsSafe ↔ (settings.refreshBuffer.toNat : Int) ≤ longestBuffer) := by
  refine ⟨fun _ => rfl, ?_⟩
  have bits := settings.refreshBuffer.toNat_lt
  have signed := toInt_toInt64 settings.refreshBuffer
  constructor
  · rintro ⟨policy, is, safe⟩
    obtain ⟨nonneg, short⟩ := isSafe_iff.1 safe
    have same := (lapse?_eq_some_iff.1 (of?_eq_some_iff.1 is).1).2
    split at signed <;> omega
  · intro short
    have nonneg : 0 ≤ (settings.refreshBuffer.toNat : Int) := Int.natCast_nonneg _
    have fits : lapse? settings.refreshBuffer.toInt64.toInt =
        some (settings.refreshBuffer.toNat : Int) := by
      unfold longestBuffer at short
      rw [signed, if_pos (by omega)]
      exact lapse?_eq_some_iff.2 ⟨by omega, rfl⟩
    let policy : RenewalPolicy :=
      ⟨settings.refreshBuffer.toNat, settings.refreshTimeout.toNat * 1000⟩
    exact ⟨policy, of?_eq_some_iff.2 ⟨fits, rfl⟩, isSafe_of_short nonneg short⟩

/-- A buffer that is one hour short of all counts. At noon it leads back to eleven, so that a token
is used that expired half an hour ago. -/
theorem wrappedBuffer_uses_expired : ∃ (settings : EngineSettings) (policy : RenewalPolicy)
    (copy : Account) (now expiry : Timestamp),
    settings.validate = .ok () ∧ settings.refreshBuffer = 18446744073709548016 ∧
    settings.renewal? = some policy ∧ (1970 ≤ now.year ∧ now.year ≤ 9999) ∧
    copy.expiresAt = some expiry ∧ now.after expiry = true ∧
    (policy.validToken copy).run.Plays AccountStore.Answers { rows := [copy] }
      [⟨.records .now, now⟩] (.done (.ok copy.accessToken)) { rows := [copy] } := by
  let settings : EngineSettings := { refreshBuffer := 18446744073709548016 }
  let expiry : Timestamp := ⟨41400, 0, by decide⟩
  let copy : Account := { Rehearsal.Cast.account with expiresAt := some expiry }
  have policy : settings.renewal? = some ⟨-3600, 15000⟩ := by decide
  have kept : copy.needsRefresh? (-3600) Rehearsal.Cast.noon = some false := by decide
  exact ⟨settings, _, copy, Rehearsal.Cast.noon, expiry, rfl, rfl, policy,
    Timestamp.year_iff.2 (by decide), rfl, by decide, plays_of_kept kept⟩

end EngineSettings

end Syndication
