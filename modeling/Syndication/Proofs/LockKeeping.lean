import Syndication.Proofs.SingleRenewal

namespace Syndication

/-- Each lock is the lock of one account, and the next one that is made is new. -/
structure LockTable.Numbered (table : LockTable) : Prop where
  apart : (table.locks.map (·.2)).Nodup
  made : ∀ entry ∈ table.locks, entry.2 < table.made

namespace LockTable

variable {table later : LockTable} {id : AccountId} {lock : Nat} {entry : AccountId × Nat}

theorem mem_of_lockOf? (found : table.lockOf? id = some lock) : (id, lock) ∈ table.locks := by
  obtain ⟨before, after, parts, _⟩ := List.lookup_eq_some_iff.1 found
  rw [parts]
  exact List.mem_append_right _ (List.mem_cons_self ..)

theorem mem_locks_of_lease {lease : Lease} (leased : table.lease id = (lease, later))
    (member : entry ∈ later.locks) : entry ∈ table.locks ∨ entry = (id, lease.lock) := by
  unfold LockTable.lease at leased
  split at leased
  · cases leased
    exact .inl member
  · cases leased
    exact (List.mem_cons.1 member).symm

/-- A lock that is left in the table by the sweep of its account has a lease on it. -/
theorem mem_locks_of_sweep (member : entry ∈ (table.sweep id).locks) :
    entry ∈ table.locks ∧
      (entry.1 = id → ∃ lock, table.lockOf? id = some lock ∧ ⟨lock⟩ ∈ table.leases) := by
  unfold sweep at member
  split at member
  · rename_i lock found
    split at member
    · rename_i leased
      exact ⟨member, fun _ => ⟨lock, found, by simpa using leased⟩⟩
    · obtain ⟨old, apart⟩ := List.mem_filter.1 member
      exact ⟨old, fun same => absurd same (by simpa using apart)⟩
  · rename_i none
    refine ⟨member, fun same => ?_⟩
    have apart := List.lookup_eq_none_iff.1 none entry member
    simp [same] at apart

theorem Answers.locks_eq {c : ServiceCall} {answer : c.Answer}
    (answered : table.Answers c answer later) (noLease : ∀ id, c ≠ .lease id)
    (noSweep : ∀ id, c ≠ .sweep id) : later.locks = table.locks := by
  cases c with
  | lease id => exact absurd rfl (noLease id)
  | sweep id => exact absurd rfl (noSweep id)
  | enter =>
    obtain ⟨_, rfl⟩ := answered
    rfl
  | leave | giveBack =>
    cases answered
    rfl
  | _ => rw [(answers_iff id).1 answered]

namespace Numbered

/-- A lock is the lock of one account only. -/
theorem unique (numbered : table.Numbered) {other : AccountId}
    (here : table.lockOf? id = some lock) (there : table.lockOf? other = some lock) :
    other = id := by
  have same := List.inj_on_of_nodup_map numbered.apart (mem_of_lockOf? there)
    (mem_of_lockOf? here) rfl
  exact congrArg Prod.fst same

theorem lease {lease : Lease} (numbered : table.Numbered)
    (leased : table.lease id = (lease, later)) : later.Numbered := by
  unfold LockTable.lease at leased
  split at leased
  · cases leased
    exact ⟨numbered.apart, numbered.made⟩
  · cases leased
    refine ⟨List.nodup_cons.2 ⟨fun member => ?_, numbered.apart⟩, fun entry member => ?_⟩
    · obtain ⟨entry, old, same⟩ := List.mem_map.1 member
      exact (numbered.made entry old).ne same
    · rcases List.mem_cons.1 member with rfl | old
      · exact Nat.lt_succ_self _
      · exact Nat.lt_succ_of_lt (numbered.made entry old)

theorem sweep (numbered : table.Numbered) (id : AccountId) : (table.sweep id).Numbered := by
  unfold LockTable.sweep
  split
  · split
    · exact numbered
    · exact ⟨numbered.apart.sublist (List.filter_sublist.map _),
        fun entry member => numbered.made entry (List.mem_of_mem_filter member)⟩
  · exact numbered

theorem answers (numbered : table.Numbered) {c : ServiceCall} {answer : c.Answer}
    (answered : table.Answers c answer later) : later.Numbered := by
  cases c with
  | lease => exact numbered.lease answered
  | sweep =>
    cases answered
    exact numbered.sweep _
  | enter =>
    obtain ⟨_, rfl⟩ := answered
    exact ⟨numbered.apart, numbered.made⟩
  | leave | giveBack =>
    cases answered
    exact ⟨numbered.apart, numbered.made⟩
  | _ =>
    obtain rfl := (answers_iff id).1 answered
    exact numbered

end Numbered

end LockTable

namespace RenewalPolicy

variable {policy : RenewalPolicy} {id : AccountId} {log : List Services.Exchange}
  {rest : Program Services (Except PublishError Secret)}

theorem Working.elsewhere_follows {p : Program Services (Except PublishError Secret)}
    (working : policy.Working id (fun _ => True) p) (follows : p.Follows log rest) :
    ∀ exchange ∈ log, ¬ exchange.1.OnLocks := by
  induction follows with
  | stop => exact List.forall_mem_nil _
  | call _ ih =>
    refine List.forall_mem_cons.2 ⟨working.elsewhere, ih (working.answer ?_ ?_)⟩
    · exact fun _ _ => trivial
    · exact fun _ _ _ _ _ _ => trivial

theorem cleanUp_sweeps {lease : Lease} {outcome : Except PublishError Secret}
    (follows : (cleanUp id lease outcome).Follows log rest) :
    ⟨.sweep id, ()⟩ ∈ log ↔ ∃ outcome, rest = .done outcome := by
  cases follows with
  | stop => simp [cleanUp]
  | call follows =>
    cases follows with
    | stop => simp
    | call follows =>
      cases follows with
      | stop => simp
      | call follows =>
        cases follows
        simp

theorem insideLock_sweeps
    (follows : (insideLock id (policy.validTokenInside id)).run.Follows log rest)
    (begun : log ≠ []) : ⟨.sweep id, ()⟩ ∈ log ↔ ∃ outcome, rest = .done outcome := by
  rw [insideLock_run] at follows
  cases follows with
  | stop => exact absurd rfl begun
  | call follows =>
    cases follows with
    | stop => simp
    | call follows =>
      -- the work inside of the lock makes no calls on locks, so that the sweep is none of its calls
      have unswept {work : List Services.Exchange} {p}
          (worked : (policy.validTokenInside id).run.Follows work p) :
          (⟨.sweep id, ()⟩ : Services.Exchange) ∉ work :=
        fun member => Working.elsewhere_follows .reading worked _ member trivial
      rcases follows.of_bind with ⟨p, worked, rfl⟩ | ⟨outcome, work, after, rfl, worked, cleaning⟩
      · cases p <;> simp [unswept worked, Program.bind, cleanUp]
      · simp [unswept worked, cleanUp_sweeps cleaning]

/-- A caller that took a lease has swept exactly if it came to a value. -/
theorem validToken_sweeps {copy : Account} {lease : Lease}
    (follows : (policy.validToken copy).run.Follows log rest)
    (leased : ⟨.lease copy.id, lease⟩ ∈ log) :
    ⟨.sweep copy.id, ()⟩ ∈ log ↔ ∃ outcome, rest = .done outcome := by
  rw [validToken_run] at follows
  cases follows with
  | stop => cases leased
  | @call _ _ now log _ follows =>
    dsimp only at follows
    split at follows
    · cases follows
      simp at leased
    · have begun : log ≠ [] := by
        rintro rfl
        simp at leased
      simpa using insideLock_sweeps follows begun
    · cases follows
      simp at leased

end RenewalPolicy

/-- What a caller asks of the lock of an account next, holding what it holds. -/
inductive Hold.Asks (id : AccountId) : Hold → ServiceCall → Prop
  | lease : Asks id .nothing (.lease id)
  | enter (lease : Lease) : Asks id (.lease lease) (.enter lease)
  | leave (lease : Lease) : Asks id (.entered lease) (.leave lease)
  | giveBack (lease : Lease) : Asks id (.lease lease) (.giveBack lease)
  | sweep : Asks id .nothing (.sweep id)

theorem Hold.Asks.of_lease {id other : AccountId} {hold : Hold}
    (asks : hold.Asks id (.lease other)) : other = id := by
  cases asks
  rfl

theorem Hold.Asks.of_sweep {id other : AccountId} {hold : Hold}
    (asks : hold.Asks id (.sweep other)) : other = id ∧ hold = .nothing := by
  cases asks
  exact ⟨rfl, rfl⟩

namespace Stands

variable {policy : RenewalPolicy} {account : Account} {m : Manner} {hold : Hold}

theorem asks {c : ServiceCall} {next : c.Answer → Program Services (Except PublishError Secret)}
    (stands : Stands policy account m (.call c next) hold) (onLocks : c.OnLocks) :
    hold.Asks account.id c := by
  generalize whole : Program.call (I := Services) c next = rest at stands
  cases stands with
  | begun =>
    rw [RenewalPolicy.validToken_run] at whole
    cases whole
    exact onLocks.elim
  | apart =>
    cases whole
    exact .lease
  | waiting lease =>
    cases whole
    exact .enter lease
  | @inside p lease is =>
    cases p with
    | done outcome =>
      cases whole
      exact .leave lease
    | call c work =>
      cases whole
      exact absurd onLocks (m.elsewhere is)
    | overflow => cases whole
  | left lease =>
    cases whole
    exact .giveBack lease
  | sweeping =>
    cases whole
    exact .sweep
  | through | unwinding => cases whole

/-- Who is through holds nothing. -/
theorem of_done {outcome : Except PublishError Secret}
    (stands : Stands policy account m (.done outcome) hold) : hold = .nothing := by
  generalize whole : Program.done (I := Services) outcome = rest at stands
  cases stands with
  | begun | through => rfl
  | @inside p => cases p <;> cases whole
  | apart | waiting | left | sweeping | unwinding => cases whole

/-- A lease that a caller holds after a call is the one that it held before, or this call handed it
out for the caller's account. -/
theorem lease?_after {c : ServiceCall} {answer : c.Answer}
    {next : c.Answer → Program Services (Except PublishError Secret)} {lease : Lease}
    (stands : Stands policy account m (.call c next) hold)
    (holds : (hold.after c answer).lease? = some lease) : hold.lease? = some lease ∨
      (⟨c, answer⟩ : Services.Exchange) = ⟨.lease account.id, lease⟩ := by
  by_cases onLocks : c.OnLocks
  · cases stands.asks onLocks with
    | lease =>
      cases holds
      exact .inr rfl
    | enter | leave => exact .inl holds
    | giveBack | sweep => cases holds
  · rw [Hold.after_eq onLocks] at holds
    exact .inl holds

end Stands

namespace Desk

variable {σ : Type} {policy : RenewalPolicy} {around : Surroundings Services σ} {others : σ}
  {log : Log} {a b desk : Desk σ} {i j : Nat} {event : Event} {id : AccountId}

/-- The caller is on its way from a lease on the lock of the account to the end of its sweep. A
caller that gave up after its lease never sweeps. -/
def Log.Engaged (log : Log) (i : Nat) (id : AccountId) : Prop :=
  (∃ lease, (i, .answered ⟨.lease id, lease⟩) ∈ log) ∧ (i, .answered ⟨.sweep id, ()⟩) ∉ log

/-- The lock of the account is needed: some caller on the account is on its way. -/
def Needs (log : Log) (desk : Desk σ) (id : AccountId) : Prop :=
  ∃ i caller, desk.callers[i]? = some caller ∧ caller.account.id = id ∧ log.Engaged i id

theorem Log.Engaged.snoc (engaged : log.Engaged j id)
    (apart : i = j → event ≠ .answered ⟨.sweep id, ()⟩) :
    Log.Engaged (log ++ [(i, event)]) j id := by
  obtain ⟨⟨lease, leased⟩, unswept⟩ := engaged
  refine ⟨⟨lease, List.mem_append_left _ leased⟩, fun member => ?_⟩
  rcases List.mem_append.1 member with old | new
  · exact unswept old
  · cases List.mem_singleton.1 new
    exact apart rfl rfl

theorem Step.numbered (step : Step around a i event b) (numbered : a.locks.Numbered) :
    b.locks.Numbered := by
  cases step with
  | ask => exact numbered
  | answer _ answered => exact numbered.answers answered
  | leave | giveBack => exact ⟨numbered.apart, numbered.made⟩

/-- The callers of a desk are still there after a step. -/
theorem Step.exists_caller (step : Step around a i event b) {caller : Caller}
    (here : a.callers[j]? = some caller) :
    ∃ moved, b.callers[j]? = some moved ∧ moved.account = caller.account := by
  obtain ⟨before, moved, there, same, sameAccount, _⟩ := step.callers_eq
  rw [same]
  by_cases moves : i = j
  · subst moves
    cases here.symm.trans there
    exact ⟨moved, List.getElem?_set_self (List.getElem?_eq_some_iff.1 here).1, sameAccount⟩
  · exact ⟨caller, (List.getElem?_set_ne moves).trans here, rfl⟩

theorem Needs.step (needs : Needs log a id) (step : Step around a i event b)
    (apart : event ≠ .answered ⟨.sweep id, ()⟩) : Needs (log ++ [(i, event)]) b id := by
  obtain ⟨j, caller, here, own, engaged⟩ := needs
  obtain ⟨moved, there, same⟩ := step.exists_caller here
  exact ⟨j, moved, there, same ▸ own, engaged.snoc fun _ => apart⟩

/-- A lease that a caller holds after a step is one that it held before, or this step handed it out
for the caller's account. -/
theorem Step.leased (sound : a.Sound policy fun _ _ => True) (step : Step around a i event b)
    {caller : Caller} (here : b.callers[j]? = some caller) {lease : Lease}
    (holds : caller.hold.lease? = some lease) :
    (∃ before, a.callers[j]? = some before ∧ before.account = caller.account ∧
      before.hold.lease? = some lease) ∨
    i = j ∧ event = .answered ⟨.lease caller.account.id, lease⟩ := by
  cases step with
  | ask there | leave there =>
    rcases of_set here with ⟨rfl, rfl⟩ | ⟨_, old⟩
    · exact .inl ⟨_, there, rfl, holds⟩
    · exact .inl ⟨_, old, rfl, holds⟩
  | answer there =>
    rcases of_set here with ⟨rfl, rfl⟩ | ⟨_, old⟩
    · have stands := sound.stands _ (List.mem_of_getElem? there)
      rcases stands.lease?_after holds with held | handedOut
      · exact .inl ⟨_, there, rfl, held⟩
      · exact .inr ⟨rfl, congrArg Event.answered handedOut⟩
    · exact .inl ⟨_, old, rfl, holds⟩
  | giveBack there =>
    rcases of_set here with ⟨rfl, rfl⟩ | ⟨_, old⟩
    · cases holds
    · exact .inl ⟨_, old, rfl, holds⟩

namespace Runs

theorem sound_any (reached : Runs policy around (opened others) log desk) :
    desk.Sound policy fun _ _ => True :=
  reached.sound ⟨fun _ => trivial, fun _ _ => trivial⟩

theorem numbered (reached : Runs policy around (opened others) log desk) :
    desk.locks.Numbered := by
  induction reached with
  | refl => exact ⟨List.nodup_nil, List.forall_mem_nil _⟩
  | join _ _ ih => exact ih
  | step _ step ih => exact step.numbered ih

/-- What a caller holds is a lease that it was handed out for its own account. -/
theorem leased (reached : Runs policy around (opened others) log desk) {caller : Caller}
    (here : desk.callers[i]? = some caller) {lease : Lease}
    (holds : caller.hold.lease? = some lease) :
    (i, .answered ⟨.lease caller.account.id, lease⟩) ∈ log := by
  induction reached generalizing caller with
  | refl => cases here
  | join account _ ih =>
    rcases of_join here with old | ⟨_, rfl⟩
    · exact ih old holds
    · cases holds
  | step run step ih =>
    rcases step.leased run.sound_any here holds with ⟨before, there, same, held⟩ | ⟨rfl, rfl⟩
    · rw [← same]
      exact List.mem_append_left _ (ih there held)
    · exact List.mem_append_right _ (List.mem_singleton_self _)

theorem swept_iff (reached : Runs policy around (opened others) log desk) {caller : Caller}
    (here : desk.callers[i]? = some caller) {lease : Lease}
    (leased : (i, .answered ⟨.lease caller.account.id, lease⟩) ∈ log) :
    (i, .answered ⟨.sweep caller.account.id, ()⟩) ∈ log ↔
      ∃ outcome, caller.rest = .done outcome := by
  rw [← Log.mem_of] at leased ⊢
  exact RenewalPolicy.validToken_sweeps (reached.follows here) leased

/-- Whoever holds a lease is on its way. -/
theorem engaged (reached : Runs policy around (opened others) log desk) {caller : Caller}
    (here : desk.callers[i]? = some caller) {lease : Lease}
    (holds : caller.hold.lease? = some lease) : log.Engaged i caller.account.id := by
  have leased := reached.leased here holds
  refine ⟨⟨lease, leased⟩, fun swept => ?_⟩
  obtain ⟨outcome, through⟩ := (reached.swept_iff here leased).1 swept
  have stands := reached.sound_any.stands _ (List.mem_of_getElem? here)
  rw [through] at stands
  rw [stands.of_done] at holds
  cases holds

/-- The caller that a lease is handed out to is on its way. -/
theorem needs_of_lease (reached : Runs policy around (opened others) log desk) {lease : Lease}
    (step : Step around desk i (.answered ⟨.lease id, lease⟩) b) :
    Needs (log ++ [(i, .answered ⟨.lease id, lease⟩)]) b id := by
  have goesOn := reached.step step
  cases step with
  | @answer account _ hold _ next _ _ here =>
    have asks := (reached.sound_any.stands _ (List.mem_of_getElem? here)).asks trivial
    obtain rfl : id = account.id := asks.of_lease
    have there : (desk.callers.set i ⟨account, next lease, .lease lease, false⟩)[i]? = some _ :=
      List.getElem?_set_self (List.getElem?_eq_some_iff.1 here).1
    exact ⟨i, _, there, rfl, goesOn.engaged there rfl⟩

/-- A lock that a sweep leaves in the table is needed by another caller, who has a lease on it. -/
theorem needs_of_sweep (reached : Runs policy around (opened others) log desk)
    (step : Step around desk i (.answered ⟨.sweep id, ()⟩) b) {lock : Nat}
    (found : desk.locks.lockOf? id = some lock) (leased : ⟨lock⟩ ∈ desk.locks.leases) :
    Needs (log ++ [(i, .answered ⟨.sweep id, ()⟩)]) b id := by
  have sound := reached.sound_any
  obtain ⟨other, member, holds⟩ := List.mem_filterMap.1 (sound.guards.leases.mem_iff.1 leased)
  obtain ⟨j, there⟩ := List.getElem?_of_mem member
  have own : other.account.id = id :=
    reached.numbered.unique found (sound.guards.held other member _ holds)
  -- who sweeps has given its own lease back, so that the lease is another caller's
  have apart : i ≠ j := by
    rintro rfl
    cases step with
    | answer here =>
      cases here.symm.trans there
      have asks := (sound.stands _ member).asks trivial
      rw [asks.of_sweep.2] at holds
      cases holds
  obtain ⟨moved, still, same⟩ := step.exists_caller there
  have engaged := own ▸ reached.engaged there holds
  exact ⟨j, moved, still, same ▸ own, engaged.snoc fun is => absurd is apart⟩

theorem needs_step (reached : Runs policy around (opened others) log desk)
    (needed : ∀ entry ∈ desk.locks.locks, Needs log desk entry.1)
    (step : Step around desk i event b) {entry : AccountId × Nat}
    (member : entry ∈ b.locks.locks) : Needs (log ++ [(i, event)]) b entry.1 := by
  -- a lock that was there before stays needed, unless the step is a sweep of its own account
  have kept (old : entry ∈ desk.locks.locks) (apart : event ≠ .answered ⟨.sweep entry.1, ()⟩) :
      Needs (log ++ [(i, event)]) b entry.1 := (needed entry old).step step apart
  have whole := step
  cases step with
  | ask | leave | giveBack => exact kept member nofun
  | @answer _ c _ answer _ locks _ here answered =>
    cases c with
    | lease id =>
      rcases LockTable.mem_locks_of_lease answered member with old | rfl
      · exact kept old nofun
      · exact reached.needs_of_lease whole
    | sweep id =>
      obtain rfl : locks = desk.locks.sweep id := answered
      obtain ⟨old, left⟩ := LockTable.mem_locks_of_sweep member
      by_cases own : entry.1 = id
      · obtain ⟨lock, found, leased⟩ := left own
        rw [own]
        exact reached.needs_of_sweep whole found leased
      · exact kept old (by simpa using Ne.symm own)
    | _ =>
      have same := LockTable.Answers.locks_eq answered nofun nofun
      exact kept (same ▸ member) nofun

/-- The table has a lock only while it is needed. -/
theorem needs (reached : Runs policy around (opened others) log desk) {entry : AccountId × Nat}
    (member : entry ∈ desk.locks.locks) : Needs log desk entry.1 := by
  induction reached generalizing entry with
  | refl => cases member
  | join account _ ih =>
    obtain ⟨i, caller, here, own, engaged⟩ := ih member
    have bound := (List.getElem?_eq_some_iff.1 here).1
    exact ⟨i, caller, (List.getElem?_append_left bound).trans here, own, engaged⟩
  | step run step ih => exact run.needs_step (fun _ => ih) step member

/-- The caller that needs a lock has come to no value yet. -/
theorem underway (reached : Runs policy around (opened others) log desk)
    {entry : AccountId × Nat} (member : entry ∈ desk.locks.locks) :
    ∃ i caller, desk.callers[i]? = some caller ∧ caller.account.id = entry.1 ∧
      log.Engaged i entry.1 ∧ ∀ outcome, caller.rest ≠ .done outcome := by
  obtain ⟨i, caller, here, own, engaged⟩ := reached.needs member
  refine ⟨i, caller, here, own, engaged, fun outcome through => ?_⟩
  obtain ⟨⟨lease, leased⟩, unswept⟩ := engaged
  rw [← own] at leased unswept
  exact unswept ((reached.swept_iff here leased).2 ⟨outcome, through⟩)

end Runs

/-- Locks are kept while they are needed. Take any number of callers on any accounts, any order of
their steps and any answers. The leases that the table counts are those that the callers hold. A
lease that a caller holds is on the lock that the table has for its account, and two callers hold
leases on one lock exactly if they are on one account; at most one of them is inside of it. The
table has a lock for an account only while some caller on the account is on its way from a lease to
the end of its sweep, with a call still to make unless its times left the calendar; and it has no
lock when all callers have come to a value. -/
theorem lock_kept_while_needed (reached : Runs policy around (opened others) log desk) :
    desk.locks.leases.Perm (desk.callers.filterMap (·.hold.lease?)) ∧
    (∀ caller ∈ desk.callers, ∀ lease, caller.hold.lease? = some lease →
      desk.locks.lockOf? caller.account.id = some lease.lock) ∧
    (∀ caller ∈ desk.callers, ∀ other ∈ desk.callers, ∀ lease leaseToo,
      caller.hold.lease? = some lease → other.hold.lease? = some leaseToo →
      (lease = leaseToo ↔ caller.account.id = other.account.id)) ∧
    (∀ {i j : Nat} {caller other : Caller}, desk.callers[i]? = some caller →
      desk.callers[j]? = some other → caller.account.id = other.account.id →
      ∀ lease leaseToo, caller.hold = .entered lease → other.hold = .entered leaseToo → i = j) ∧
    (∀ entry ∈ desk.locks.locks, ∃ i caller, desk.callers[i]? = some caller ∧
      caller.account.id = entry.1 ∧ log.Engaged i entry.1 ∧
      (¬ caller.rest.IsOver ∨ caller.rest = .overflow)) ∧
    ((∀ caller ∈ desk.callers, ∃ outcome, caller.rest = .done outcome) →
      desk.locks.locks = []) := by
  have sound := reached.sound_any
  have held := sound.guards.held
  refine ⟨sound.guards.leases, held, ?_, ?_, fun entry member => ?_, fun through => ?_⟩
  · intro caller member other memberToo lease leaseToo holds holdsToo
    have here := held caller member lease holds
    have there := held other memberToo leaseToo holdsToo
    constructor
    · rintro rfl
      exact reached.numbered.unique there here
    · intro same
      rw [same, there] at here
      cases lease
      cases leaseToo
      cases here
      rfl
  · intro i j caller other here there same lease leaseToo inside insideToo
    exact sound.inside_unique here there same.symm inside insideToo
  · obtain ⟨i, ⟨account, rest, hold, asking⟩, here, own, engaged, noValue⟩ :=
      reached.underway member
    refine ⟨i, _, here, own, engaged, ?_⟩
    cases rest with
    | done outcome => exact absurd rfl (noValue outcome)
    | call c next => exact .inl id
    | overflow => exact .inr rfl
  · refine List.eq_nil_iff_forall_not_mem.2 fun entry member => ?_
    obtain ⟨i, caller, here, _, _, noValue⟩ := reached.underway member
    obtain ⟨outcome, is⟩ := through caller (List.mem_of_getElem? here)
    exact noValue outcome is

open Rehearsal in
/-- Two callers on an account that is not stored. The first one sweeps while the second one is
inside of the lock, which stays in the table; when the second one has swept too, the table has no
lock. -/
theorem lock_kept_while_needed_two :
    (∃ log desk caller other,
      Runs Cast.engine.renewal (AccountStore.Works Cast.morning) (opened ⟨[], 0⟩) log desk ∧
      desk.callers = [caller, other] ∧ (0, .answered ⟨.sweep Cast.expired.id, ()⟩) ∈ log ∧
      other.hold = .entered ⟨0⟩ ∧ desk.locks.lockOf? Cast.expired.id = some 0) ∧
    ∃ log desk,
      Runs Cast.engine.renewal (AccountStore.Works Cast.morning) (opened ⟨[], 0⟩) log desk ∧
      desk.locks.made = 1 ∧ (∀ caller ∈ desk.callers, ∃ outcome, caller.rest = .done outcome) ∧
      desk.locks.locks = [] := by
  have opens : Runs Cast.engine.renewal (AccountStore.Works Cast.morning) (opened ⟨[], 0⟩) [] _ :=
    .join Cast.expired (.join Cast.expired .refl)
  have looks := opens.step (show Step _ _ 0 (.answered ⟨.records .now, Cast.morning⟩) _ from
    .answer rfl rfl ⟨rfl, rfl⟩)
  have leases := looks.step (show Step _ _ 0 (.answered ⟨.lease Cast.expired.id, ⟨0⟩⟩) _ from
    .answer rfl rfl rfl)
  have enters := leases.step (show Step _ _ 0 (.answered ⟨.enter ⟨0⟩, ()⟩) _ from
    .answer rfl ⟨rfl, rfl⟩ rfl)
  have looksToo := enters.step (show Step _ _ 1 (.answered ⟨.records .now, Cast.morning⟩) _ from
    .answer rfl rfl ⟨rfl, rfl⟩)
  have waits := looksToo.step (show Step _ _ 1 (.answered ⟨.lease Cast.expired.id, ⟨0⟩⟩) _ from
    .answer rfl rfl rfl)
  have misses := waits.step (show Step _ _ 0
    (.answered ⟨.getAccount Cast.expired.id, .ok none⟩) _ from .answer rfl rfl ⟨rfl, rfl⟩)
  have leaves := misses.step (show Step _ _ 0 (.answered ⟨.leave ⟨0⟩, ()⟩) _ from
    .answer rfl rfl rfl)
  have givesBack := leaves.step (show Step _ _ 0 (.answered ⟨.giveBack ⟨0⟩, ()⟩) _ from
    .answer rfl rfl rfl)
  have goesIn := givesBack.step (show Step _ _ 1 (.answered ⟨.enter ⟨0⟩, ()⟩) _ from
    .answer rfl ⟨rfl, rfl⟩ rfl)
  have sweeps := goesIn.step (show Step _ _ 0 (.answered ⟨.sweep Cast.expired.id, ()⟩) _ from
    .answer rfl rfl rfl)
  have missesToo := sweeps.step (show Step _ _ 1
    (.answered ⟨.getAccount Cast.expired.id, .ok none⟩) _ from .answer rfl rfl ⟨rfl, rfl⟩)
  have leavesToo := missesToo.step (show Step _ _ 1 (.answered ⟨.leave ⟨0⟩, ()⟩) _ from
    .answer rfl rfl rfl)
  have givesBackToo := leavesToo.step (show Step _ _ 1 (.answered ⟨.giveBack ⟨0⟩, ()⟩) _ from
    .answer rfl rfl rfl)
  have sweepsToo := givesBackToo.step (show Step _ _ 1
    (.answered ⟨.sweep Cast.expired.id, ()⟩) _ from .answer rfl rfl rfl)
  constructor
  · obtain ⟨log, desk, caller, other, reached, both, swept, inside⟩ : ∃ log desk caller other,
        Runs Cast.engine.renewal (AccountStore.Works Cast.morning) (opened ⟨[], 0⟩) log desk ∧
        desk.callers = [caller, other] ∧ (0, .answered ⟨.sweep Cast.expired.id, ()⟩) ∈ log ∧
        other.account = Cast.expired ∧ other.hold = .entered ⟨0⟩ :=
      ⟨_, _, _, _, sweeps, rfl, List.mem_append_right _ (List.mem_singleton_self _), rfl, rfl⟩
    obtain ⟨_, held, _⟩ := lock_kept_while_needed reached
    have kept := held other (by simp [both]) ⟨0⟩ (by rw [inside.2]; rfl)
    rw [inside.1] at kept
    exact ⟨log, desk, caller, other, reached, both, swept, inside.2, kept⟩
  · obtain ⟨log, desk, caller, other, reached, both, done, doneToo, made⟩ :
        ∃ log desk caller other,
          Runs Cast.engine.renewal (AccountStore.Works Cast.morning) (opened ⟨[], 0⟩) log desk ∧
          desk.callers = [caller, other] ∧ (∃ outcome, caller.rest = .done outcome) ∧
          (∃ outcome, other.rest = .done outcome) ∧ desk.locks.made = 1 :=
      ⟨_, _, _, _, sweepsToo, rfl, ⟨_, rfl⟩, ⟨_, rfl⟩, rfl⟩
    obtain ⟨_, _, _, _, _, cleared⟩ := lock_kept_while_needed reached
    have through : ∀ caller ∈ desk.callers, ∃ outcome, caller.rest = .done outcome := by
      rw [both]
      exact List.forall_mem_cons.2 ⟨done, List.forall_mem_singleton.2 doneToo⟩
    exact ⟨log, desk, reached, made, through, cleared through⟩

end Desk

end Syndication
