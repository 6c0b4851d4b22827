import Mathlib.Data.List.Perm.Basic
import Syndication.Proofs.Renewals

namespace Syndication

/-- How a table of locks answers. A lock is entered only while it is free. -/
def LockTable.Answers : Surroundings Services LockTable
  | table, .lease id, lease, later => table.lease id = (lease, later)
  | table, .enter lease, _, later => table.isFree lease = true ∧ later = table.enter lease
  | table, .leave lease, _, later => later = table.leave lease
  | table, .giveBack lease, _, later => later = table.giveBack lease
  | table, .sweep id, _, later => later = table.sweep id
  | table, _, _, later => later = table

/-- What a caller holds of the lock of its account. -/
inductive Hold where
  | nothing
  | lease (lease : Lease)
  | entered (lease : Lease)

namespace Hold

def lease? : Hold → Option Lease
  | nothing => none
  | lease held | entered held => some held

/-- The lock that the caller is inside of. -/
def lock? : Hold → Option Nat
  | entered held => some held.lock
  | _ => none

/-- What is held when a call was answered. -/
def after (hold : Hold) : (c : ServiceCall) → c.Answer → Hold
  | .lease _, held => .lease held
  | .enter held, _ => .entered held
  | .leave held, _ => .lease held
  | .giveBack _, _ => .nothing
  | _, _ => hold

end Hold

/-- Somebody who wants a valid token, and what is left of the program for it. -/
structure Caller where
  /-- The copy of the account that the caller came with. -/
  account : Account
  rest : Program Services (Except PublishError Secret)
  hold : Hold := .nothing
  /-- Whether its call to a token endpoint is in flight. -/
  asking : Bool := false

/-- A table of locks, and callers that take their steps in any order. The locks answer as the table
does, and a lock is entered only while it is free. A call to an endpoint goes out in one step and is
answered in another, by a reply or since its time is over. -/
structure Desk (σ : Type) where
  locks : LockTable := {}
  /-- The state of all other services. -/
  others : σ
  callers : List Caller := []

def ServiceCall.isRenewal : ServiceCall → Bool
  | .renew .. => true
  | _ => false

namespace Desk

variable {σ : Type}

/-- A desk where nobody called yet. -/
def opened (others : σ) : Desk σ := { others }

/-- Somebody calls with a copy of an account. -/
def join (policy : RenewalPolicy) (desk : Desk σ) (account : Account) : Desk σ :=
  { desk with
    callers := desk.callers ++ [⟨account, (policy.validToken account).run, .nothing, false⟩] }

inductive Event where
  /-- The call to a token endpoint went out. -/
  | asked
  | answered (exchange : Services.Exchange)
  /-- Something held was given up. -/
  | unwound

/-- One step of the caller with this number. -/
inductive Step (around : Surroundings Services σ) (a : Desk σ) (i : Nat) : Event → Desk σ → Prop
  | ask {account : Account} {platform : Platform} {token : Secret} {limit : Nat} {hold : Hold}
      {next : TokenReply → Program Services (Except PublishError Secret)} :
      a.callers[i]? = some ⟨account, .call (.renew platform token limit) next, hold, false⟩ →
      Step around a i .asked { a with
        callers := a.callers.set i ⟨account, .call (.renew platform token limit) next, hold, true⟩ }
  | answer {account : Account} {c : ServiceCall} {hold : Hold} {answer : c.Answer}
      {next : c.Answer → Program Services (Except PublishError Secret)} {locks : LockTable}
      {others : σ} : a.callers[i]? = some ⟨account, .call c next, hold, c.isRenewal⟩ →
      a.locks.Answers c answer locks → around a.others c answer others →
      Step around a i (.answered ⟨c, answer⟩)
        ⟨locks, others, a.callers.set i ⟨account, next answer, hold.after c answer, false⟩⟩
  | leave {account : Account} {lease : Lease} :
      a.callers[i]? = some ⟨account, .overflow, .entered lease, false⟩ →
      Step around a i .unwound ⟨a.locks.leave lease, a.others,
        a.callers.set i ⟨account, .overflow, .lease lease, false⟩⟩
  | giveBack {account : Account} {lease : Lease} :
      a.callers[i]? = some ⟨account, .overflow, .lease lease, false⟩ →
      Step around a i .unwound ⟨a.locks.giveBack lease, a.others,
        a.callers.set i ⟨account, .overflow, .nothing, false⟩⟩

/-- The call that was answered, if one was. -/
def Event.exchange? : Event → Option Services.Exchange
  | .answered exchange => some exchange
  | _ => none

abbrev Log := List (Nat × Event)

/-- The answered calls of the caller with this number. -/
def Log.of (log : Log) (i : Nat) : List Services.Exchange :=
  log.filterMap fun entry => if entry.1 = i then entry.2.exchange? else none

/-- `Runs policy around a log b`: the desk `a` may become `b` by the steps in the log. -/
inductive Runs (policy : RenewalPolicy) (around : Surroundings Services σ) (a : Desk σ) :
    Log → Desk σ → Prop
  | refl : Runs policy around a [] a
  | join {log : Log} {b : Desk σ} (account : Account) : Runs policy around a log b →
      Runs policy around a log (b.join policy account)
  | step {log : Log} {b c : Desk σ} {i : Nat} {event : Event} : Runs policy around a log b →
      Step around b i event c → Runs policy around a (log ++ [(i, event)]) c

end Desk

/-- What a caller may do with the lock of an account, holding what it holds. -/
inductive LockTable.Moves (id : AccountId) : Hold → LockTable → Hold → LockTable → Prop
  | stay (hold : Hold) (table : LockTable) : Moves id hold table hold table
  | lease {table later : LockTable} {lease : Lease} : table.lease id = (lease, later) →
      Moves id .nothing table (.lease lease) later
  | enter {table : LockTable} {lease : Lease} : table.isFree lease = true →
      Moves id (.lease lease) table (.entered lease) (table.enter lease)
  | leave (table : LockTable) (lease : Lease) :
      Moves id (.entered lease) table (.lease lease) (table.leave lease)
  | giveBack (table : LockTable) (lease : Lease) :
      Moves id (.lease lease) table .nothing (table.giveBack lease)
  | sweep (table : LockTable) : Moves id .nothing table .nothing (table.sweep id)

theorem LockTable.lookup_sweep {table : LockTable} {id other : AccountId} {lock : Nat}
    (found : table.lockOf? other = some lock) (kept : other = id → ⟨lock⟩ ∈ table.leases) :
    (table.sweep id).lockOf? other = some lock := by
  unfold sweep
  split
  · rename_i own isOwn
    split
    · exact found
    · rename_i unleased
      have apart : other ≠ id := by
        rintro rfl
        rw [found] at isOwn
        cases isOwn
        exact unleased (by simpa using kept rfl)
      rw [lockOf?, List.lookup_eq_some_iff] at found ⊢
      obtain ⟨before, after, parts, first⟩ := found
      refine ⟨before.filter (·.1 != id), after.filter (·.1 != id), ?_, ?_⟩
      · simp [parts, apart]
      · exact fun entry member => first entry (List.mem_of_mem_filter member)
  · exact found

/-- The table knows what the callers hold: its leases are theirs, the locks that somebody is inside
of are those that they are inside of, no two of them inside of the same, and each lease is on the
lock that the table has for the account. -/
structure LockTable.Guards (table : LockTable) (callers : List Caller) : Prop where
  leases : table.leases.Perm (callers.filterMap (·.hold.lease?))
  entered : table.entered.Perm (callers.filterMap (·.hold.lock?))
  apart : table.entered.Nodup
  held : ∀ caller ∈ callers, ∀ lease, caller.hold.lease? = some lease →
    table.lockOf? caller.account.id = some lease.lock

namespace LockTable.Guards

variable {table later : LockTable} {callers : List Caller} {i j : Nat} {caller moved : Caller}

theorem filterMap_perm {α : Type} (f : Caller → Option α) (here : callers[i]? = some caller) :
    (callers.filterMap f).Perm ((f caller).toList ++ (callers.eraseIdx i).filterMap f) := by
  obtain ⟨bound, rfl⟩ := List.getElem?_eq_some_iff.1 here
  have perm := (List.getElem_cons_eraseIdx_perm bound).symm.filterMap f
  cases is : f callers[i] <;> simpa [List.filterMap_cons, is] using perm

theorem filterMap_set_perm {α : Type} (f : Caller → Option α) (here : callers[i]? = some caller)
    (moved : Caller) :
    ((callers.set i moved).filterMap f).Perm
      ((f moved).toList ++ (callers.eraseIdx i).filterMap f) := by
  obtain ⟨bound, _⟩ := List.getElem?_eq_some_iff.1 here
  have perm := (List.set_perm_cons_eraseIdx bound moved).filterMap f
  cases is : f moved <;> simpa [List.filterMap_cons, is] using perm

/-- Two callers inside of one lock are the same caller. -/
theorem unique (guards : table.Guards callers) {other : Caller} {lock : Nat}
    (here : callers[i]? = some caller) (there : callers[j]? = some other)
    (inside : caller.hold.lock? = some lock) (insideToo : other.hold.lock? = some lock) :
    i = j := by
  by_contra differ
  have apart := guards.apart
  rw [(guards.entered.trans (filterMap_perm (·.hold.lock?) here)).nodup_iff, inside] at apart
  refine (List.nodup_cons.1 apart).1 (List.mem_filterMap.2 ⟨other, ?_, insideToo⟩)
  exact List.mem_eraseIdx_iff_getElem?.2 ⟨j, Ne.symm differ, there⟩

theorem mem_leases (guards : table.Guards callers) (member : caller ∈ callers) {lease : Lease}
    (holds : caller.hold.lease? = some lease) : lease ∈ table.leases :=
  guards.leases.mem_iff.2 (List.mem_filterMap.2 ⟨caller, member, holds⟩)

theorem lookup_lease {id other : AccountId} {lease : Lease} {lock : Nat}
    (leased : table.lease id = (lease, later)) (found : table.lockOf? other = some lock) :
    later.lockOf? other = some lock := by
  unfold LockTable.lease at leased
  split at leased
  · cases leased
    exact found
  · rename_i none
    cases leased
    have apart : other ≠ id := by
      rintro rfl
      rw [found] at none
      cases none
    rw [lockOf?, List.lookup_cons, beq_false_of_ne apart]
    exact found

theorem of_lease {id : AccountId} {lease : Lease} (leased : table.lease id = (lease, later)) :
    later.leases = lease :: table.leases ∧ later.entered = table.entered ∧
      later.lockOf? id = some lease.lock := by
  unfold LockTable.lease at leased
  split at leased
  · rename_i found
    cases leased
    exact ⟨rfl, rfl, found⟩
  · cases leased
    exact ⟨rfl, rfl, List.lookup_cons_self⟩

/-- The table goes on knowing what the callers hold when one of them makes a move. -/
theorem move (guards : table.Guards callers) {account : Account} {hold now : Hold}
    {rest goesOn : Program Services (Except PublishError Secret)} {asking asks : Bool}
    (here : callers[i]? = some ⟨account, rest, hold, asking⟩)
    (moves : LockTable.Moves account.id hold table now later) :
    later.Guards (callers.set i ⟨account, goesOn, now, asks⟩) := by
  have leases := guards.leases.trans (filterMap_perm (·.hold.lease?) here)
  have entered := guards.entered.trans (filterMap_perm (·.hold.lock?) here)
  have leasesNow := filterMap_set_perm (·.hold.lease?) here ⟨account, goesOn, now, asks⟩
  have enteredNow := filterMap_set_perm (·.hold.lock?) here ⟨account, goesOn, now, asks⟩
  have held : ∀ {lease}, hold.lease? = some lease → table.lockOf? account.id = some lease.lock :=
    guards.held _ (List.mem_of_getElem? here) _
  -- what the others hold stays as it is, so that only the leases and locks of this caller matter
  suffices known : later.leases.Perm (now.lease?.toList ++ (callers.eraseIdx i).filterMap
        (·.hold.lease?)) ∧
      later.entered.Perm (now.lock?.toList ++ (callers.eraseIdx i).filterMap (·.hold.lock?)) ∧
      later.entered.Nodup ∧
      (∀ caller ∈ callers, ∀ lease, caller.hold.lease? = some lease →
        later.lockOf? caller.account.id = some lease.lock) ∧
      ∀ lease, now.lease? = some lease → later.lockOf? account.id = some lease.lock by
    obtain ⟨leased, inside, apart, others, own⟩ := known
    refine ⟨leased.trans leasesNow.symm, inside.trans enteredNow.symm, apart,
      fun caller member => ?_⟩
    rcases List.mem_or_eq_of_mem_set member with old | rfl
    · exact others caller old
    · exact own
  cases moves with
  | stay => exact ⟨leases, entered, guards.apart, guards.held, fun _ => held⟩
  | lease leased =>
    obtain ⟨taken, same, own⟩ := of_lease leased
    refine ⟨?_, ?_, ?_, fun caller member lease holds => ?_, ?_⟩
    · rw [taken]
      exact leases.cons _
    · rw [same]
      exact entered
    · rw [same]
      exact guards.apart
    · exact lookup_lease leased (guards.held caller member lease holds)
    · rintro _ ⟨⟩
      exact own
  | enter free =>
    refine ⟨leases, entered.cons _, ?_, guards.held, fun _ => held⟩
    refine List.nodup_cons.2 ⟨?_, guards.apart⟩
    simpa [isFree] using free
  | leave _ lease =>
    have left := entered.erase lease.lock
    refine ⟨leases, ?_, guards.apart.erase _, guards.held, fun _ => held⟩
    simpa [LockTable.leave, Hold.lock?] using left
  | giveBack _ lease =>
    have left := leases.erase lease
    refine ⟨?_, entered, guards.apart, guards.held, ?_⟩
    · simpa [LockTable.giveBack, Hold.lease?] using left
    · rintro _ ⟨⟩
  | sweep =>
    have same : (table.sweep account.id).leases = table.leases ∧
        (table.sweep account.id).entered = table.entered := by
      unfold LockTable.sweep
      split
      · split <;> exact ⟨rfl, rfl⟩
      · exact ⟨rfl, rfl⟩
    rw [same.1, same.2]
    refine ⟨leases, entered, guards.apart, fun caller member lease holds => ?_, ?_⟩
    · exact lookup_sweep (guards.held caller member lease holds) fun _ =>
        guards.mem_leases member holds
    · rintro _ ⟨⟩

end LockTable.Guards

theorem LockTable.answers_iff {c : ServiceCall} (elsewhere : ¬ c.OnLocks)
    {table later : LockTable} {answer : c.Answer} :
    table.Answers c answer later ↔ later = table := by
  cases c with
  | lease | enter | leave | giveBack | sweep => exact absurd trivial elsewhere
  | _ => exact .rfl

theorem Hold.after_eq {c : ServiceCall} (elsewhere : ¬ c.OnLocks) (hold : Hold)
    (answer : c.Answer) : hold.after c answer = hold := by
  cases c with
  | lease | enter | leave | giveBack | sweep => exact absurd trivial elsewhere
  | _ => rfl

/-- How a caller conducts itself. -/
structure Manner where
  /-- What may be left of its work inside the lock. -/
  inside : Program Services (Except PublishError Secret) → Prop
  elsewhere {c : ServiceCall} {next : c.Answer → Program Services (Except PublishError Secret)} :
    inside (.call c next) → ¬ c.OnLocks
  /-- What it may come to after its work. -/
  ends : Except PublishError Secret → Prop
  /-- Whether it may stand in front of a look at its copy, be content with it or have given up. -/
  early : Prop

/-- Where a caller may stand, and what it holds there. -/
inductive Stands (policy : RenewalPolicy) (account : Account) (m : Manner) :
    Program Services (Except PublishError Secret) → Hold → Prop
  | begun : m.early → Stands policy account m (policy.validToken account).run .nothing
  | apart : Stands policy account m
      (RenewalPolicy.insideLock account.id (policy.validTokenInside account.id)).run .nothing
  | waiting (lease : Lease) : Stands policy account m (.call (.enter lease) fun _ =>
      (policy.validTokenInside account.id).run.bind (RenewalPolicy.cleanUp account.id lease))
      (.lease lease)
  | inside {p : Program Services (Except PublishError Secret)} (lease : Lease) : m.inside p →
      Stands policy account m (p.bind (RenewalPolicy.cleanUp account.id lease)) (.entered lease)
  | left {outcome : Except PublishError Secret} (lease : Lease) : m.ends outcome →
      Stands policy account m (.call (.giveBack lease) fun _ => .call (.sweep account.id) fun _ =>
        .done outcome) (.lease lease)
  | sweeping {outcome : Except PublishError Secret} : m.ends outcome →
      Stands policy account m (.call (.sweep account.id) fun _ => .done outcome) .nothing
  | through {outcome : Except PublishError Secret} : m.early ∨ m.ends outcome →
      Stands policy account m (.done outcome) .nothing
  | unwinding {hold : Hold} : m.early → hold.lock? = none → Stands policy account m .overflow hold

namespace Stands

variable {policy : RenewalPolicy} {account : Account} {m n : Manner} {hold : Hold}
  {rest : Program Services (Except PublishError Secret)}

/-- The caller goes on in its manner when a call is answered. What it does with the lock is one of
the moves. -/
theorem answer {c : ServiceCall} {next : c.Answer → Program Services (Except PublishError Secret)}
    {answer : c.Answer} {table later : LockTable}
    (stands : Stands policy account m (.call c next) hold)
    (answered : table.Answers c answer later)
    (early : ∀ now, (⟨c, answer⟩ : Services.Exchange) = ⟨.records .now, now⟩ →
      account.needsRefresh? policy.buffer now ≠ some true → m.early → n.early)
    (starts : ∀ lease, c = .enter lease → n.inside (policy.validTokenInside account.id).run)
    (works : ∀ work, m.inside (.call c work) → n.inside (work answer))
    (leaves : ∀ lease outcome, c = .leave lease → m.inside (.done outcome) → n.ends outcome)
    (ends : ∀ outcome, (∃ lease, c = .giveBack lease) ∨ c = .sweep account.id → m.ends outcome →
      n.ends outcome) :
    LockTable.Moves account.id hold table (hold.after c answer) later ∧
      Stands policy account n (next answer) (hold.after c answer) := by
  generalize whole : Program.call (I := Services) c next = rest at stands
  cases stands with
  | begun is =>
    rw [RenewalPolicy.validToken_run] at whole
    cases whole
    obtain rfl : later = table := answered
    refine ⟨.stay _ _, ?_⟩
    dsimp only
    split
    · rename_i none
      exact .unwinding (early answer rfl (by simp [none]) is) rfl
    · exact .apart
    · rename_i content
      exact .through (.inl (early answer rfl (by simp [content]) is))
  | apart =>
    cases whole
    exact ⟨.lease answered, .waiting answer⟩
  | waiting lease =>
    cases whole
    obtain ⟨free, rfl⟩ := answered
    exact ⟨.enter free, .inside lease (starts lease rfl)⟩
  | @inside p lease is =>
    cases p with
    | done outcome =>
      cases whole
      obtain rfl : later = table.leave lease := answered
      exact ⟨.leave _ _, .left lease (leaves lease outcome rfl is)⟩
    | call d work =>
      cases whole
      rw [(LockTable.answers_iff (m.elsewhere is)).1 answered, Hold.after_eq (m.elsewhere is)]
      exact ⟨.stay _ _, .inside lease (works work is)⟩
    | overflow => cases whole
  | left lease is =>
    cases whole
    obtain rfl : later = table.giveBack lease := answered
    exact ⟨.giveBack _ _, .sweeping (ends _ (.inl ⟨lease, rfl⟩) is)⟩
  | sweeping is =>
    cases whole
    obtain rfl : later = table.sweep account.id := answered
    exact ⟨.sweep _, .through (.inr (ends _ (.inr rfl) is))⟩
  | through => cases whole
  | unwinding => cases whole

theorem mono (stands : Stands policy account m rest hold)
    (inside : ∀ p lease, hold = .entered lease → m.inside p → n.inside p)
    (ends : ∀ outcome, m.ends outcome → n.ends outcome)
    (early : m.early → n.early) : Stands policy account n rest hold := by
  cases stands with
  | begun is => exact .begun (early is)
  | apart => exact .apart
  | waiting lease => exact .waiting lease
  | inside lease is => exact .inside lease (inside _ lease rfl is)
  | left lease is => exact .left lease (ends _ is)
  | sweeping is => exact .sweeping (ends _ is)
  | through is => exact .through (is.imp early (ends _))
  | unwinding is free => exact .unwinding (early is) free

/-- Calls that are neither on locks nor on the clock are made inside of the lock. -/
theorem of_call {c : ServiceCall} {next : c.Answer → Program Services (Except PublishError Secret)}
    (stands : Stands policy account m (.call c next) hold) (elsewhere : ¬ c.OnLocks)
    (timeless : c ≠ .records .now) : ∃ lease, ∃ work : c.Answer → Program Services _,
      hold = .entered lease ∧ m.inside (.call c work) := by
  generalize whole : Program.call (I := Services) c next = rest at stands
  cases stands with
  | begun =>
    rw [RenewalPolicy.validToken_run] at whole
    cases whole
    exact absurd rfl timeless
  | @inside p lease is =>
    cases p with
    | done =>
      cases whole
      exact absurd trivial elsewhere
    | call d work =>
      cases whole
      exact ⟨lease, work, rfl, is⟩
    | overflow => cases whole
  | apart | waiting | left | sweeping =>
    cases whole
    exact absurd trivial elsewhere
  | through | unwinding => cases whole

/-- Who is inside of the lock is at its work there. -/
theorem of_entered {lease : Lease} (stands : Stands policy account m rest (.entered lease)) :
    ∃ p, m.inside p ∧ rest = p.bind (RenewalPolicy.cleanUp account.id lease) := by
  generalize held : Hold.entered lease = hold at stands
  cases stands with
  | @inside p _ is =>
    cases held
    exact ⟨p, is, rfl⟩
  | unwinding _ free =>
    subst held
    cases free
  | _ => cases held

/-- Who gave up in front of the lock did so at its copy. -/
theorem of_overflow {lease : Lease} (stands : Stands policy account m .overflow (.lease lease)) :
    m.early := by
  generalize gone : Program.overflow (I := Services) = rest at stands
  generalize held : Hold.lease lease = hold at stands
  cases stands with
  | unwinding early => exact early
  | waiting | left => cases gone
  | _ => cases held

end Stands

namespace Desk

variable {σ : Type} {policy : RenewalPolicy} {around : Surroundings Services σ}
  {fit : AccountId → Account → Prop}

/-- A caller that works on accounts such as `fit`, and may come to anything. -/
def manner (policy : RenewalPolicy) (fit : AccountId → Account → Prop) (id : AccountId) :
    Manner where
  inside := policy.Working id (fit id)
  elsewhere := RenewalPolicy.Working.elsewhere
  ends _ := True
  early := True

/-- Accounts are read and renewed such as `fit`. -/
structure Fitting (around : Surroundings Services σ) (fit : AccountId → Account → Prop) : Prop where
  reads : ∀ {s t id account}, around s (.getAccount id) (.ok (some account)) t → fit id account
  renews : ∀ {id account grant now renewed}, fit id account →
    Account.applyGrant? account grant now = some renewed → fit id renewed

/-- The table knows what the callers hold, each caller stands where its program may be, and only who
calls an endpoint has its call in flight. -/
structure Sound (policy : RenewalPolicy) (fit : AccountId → Account → Prop) (desk : Desk σ) :
    Prop where
  guards : desk.locks.Guards desk.callers
  stands : ∀ caller ∈ desk.callers,
    Stands policy caller.account (manner policy fit caller.account.id) caller.rest caller.hold
  asking : ∀ caller ∈ desk.callers, caller.asking = true → ∃ platform token limit next,
    caller.rest = .call (.renew platform token limit) next

theorem Sound.opened (others : σ) : Sound policy fit (opened others) where
  guards := ⟨.nil, .nil, .nil, by simp [Desk.opened]⟩
  stands := by simp [Desk.opened]
  asking := by simp [Desk.opened]

theorem Sound.join {desk : Desk σ} (sound : desk.Sound policy fit) (account : Account) :
    (desk.join policy account).Sound policy fit where
  guards := by
    refine ⟨?_, ?_, sound.guards.apart, fun caller member lease holds => ?_⟩
    · simpa [Desk.join, Hold.lease?] using sound.guards.leases
    · simpa [Desk.join, Hold.lock?] using sound.guards.entered
    · rcases List.mem_append.1 member with old | new
      · exact sound.guards.held caller old lease holds
      · cases List.mem_singleton.1 new
        cases holds
  stands caller member := by
    rcases List.mem_append.1 member with old | new
    · exact sound.stands caller old
    · cases List.mem_singleton.1 new
      exact .begun trivial
  asking caller member asks := by
    rcases List.mem_append.1 member with old | new
    · exact sound.asking caller old asks
    · cases List.mem_singleton.1 new
      cases asks

/-- A step of one caller leaves a sound desk if it makes a move with the lock and stands where its
program may be. -/
theorem Sound.set {desk : Desk σ} (sound : desk.Sound policy fit) {i : Nat} {account : Account}
    {hold now : Hold} {rest goesOn : Program Services (Except PublishError Secret)}
    {asking asks : Bool} {locks : LockTable} (others : σ)
    (here : desk.callers[i]? = some ⟨account, rest, hold, asking⟩)
    (moves : LockTable.Moves account.id hold desk.locks now locks)
    (stands : Stands policy account (manner policy fit account.id) goesOn now)
    (asksEndpoint : asks = true → ∃ platform token limit next,
      goesOn = .call (.renew platform token limit) next) :
    Sound policy fit ⟨locks, others, desk.callers.set i ⟨account, goesOn, now, asks⟩⟩ where
  guards := sound.guards.move here moves
  stands caller member := by
    rcases List.mem_or_eq_of_mem_set member with old | rfl
    · exact sound.stands caller old
    · exact stands
  asking caller member := by
    rcases List.mem_or_eq_of_mem_set member with old | rfl
    · exact sound.asking caller old
    · exact asksEndpoint

theorem Sound.step {a b : Desk σ} {i : Nat} {event : Event} (sound : a.Sound policy fit)
    (fitting : Fitting around fit) (step : Step around a i event b) : b.Sound policy fit := by
  cases step with
  | ask here =>
    have stands := sound.stands _ (List.mem_of_getElem? here)
    exact sound.set a.others here (.stay _ _) stands fun _ => ⟨_, _, _, _, rfl⟩
  | @answer account c _ answer _ _ _ here answered around =>
    have stands := sound.stands _ (List.mem_of_getElem? here)
    have goesOn (work) (working : policy.Working account.id (fit account.id) (.call c work)) :
        policy.Working account.id (fit account.id) (work answer) := by
      refine working.answer (fun read is => ?_) fun _ _ _ _ => fitting.renews
      cases is
      exact fitting.reads around
    obtain ⟨moves, stands⟩ := stands.answer answered (fun _ _ _ => id) (fun _ _ => .reading)
      goesOn (fun _ _ _ _ => trivial) fun _ _ => id
    exact sound.set _ here moves stands (by simp)
  | leave here =>
    exact sound.set a.others here (.leave _ _) (.unwinding trivial rfl) (by simp)
  | giveBack here =>
    exact sound.set a.others here (.giveBack _ _) (.unwinding trivial rfl) (by simp)

/-- One caller goes on, and all others stay where they are. -/
theorem Step.callers_eq {a b : Desk σ} {i : Nat} {event : Event} (step : Step around a i event b) :
    ∃ caller moved, a.callers[i]? = some caller ∧ b.callers = a.callers.set i moved ∧
      moved.account = caller.account ∧
      ∀ {p log}, Program.Follows p log caller.rest →
        p.Follows (log ++ event.exchange?.toList) moved.rest := by
  cases step with
  | answer here => exact ⟨_, _, here, rfl, rfl, fun follows => follows.snoc _⟩
  | ask here | leave here | giveBack here =>
    refine ⟨_, _, here, rfl, rfl, fun follows => ?_⟩
    simpa [Event.exchange?] using follows

theorem of_join {σ : Type} {desk : Desk σ} {account : Account} {i : Nat} {caller : Caller}
    (here : (desk.join policy account).callers[i]? = some caller) :
    desk.callers[i]? = some caller ∨ i = desk.callers.length ∧
      caller = ⟨account, (policy.validToken account).run, .nothing, false⟩ := by
  simp only [Desk.join, List.getElem?_append, List.getElem?_singleton] at here
  split at here
  · exact .inl here
  · split at here
    · cases here
      exact .inr ⟨by omega, rfl⟩
    · cases here

theorem of_set {callers : List Caller} {i j : Nat} {caller moved : Caller}
    (here : (callers.set i moved)[j]? = some caller) :
    i = j ∧ caller = moved ∨ i ≠ j ∧ callers[j]? = some caller := by
  by_cases same : i = j
  · subst same
    have bound := (List.getElem?_eq_some_iff.1 here).1
    rw [List.getElem?_set_self (by simpa using bound)] at here
    exact .inl ⟨rfl, (Option.some.inj here).symm⟩
  · rw [List.getElem?_set_ne same] at here
    exact .inr ⟨same, here⟩

theorem Runs.sound {others : σ} {log : Log} {desk : Desk σ}
    (reached : Runs policy around (opened others) log desk) (fitting : Fitting around fit) :
    desk.Sound policy fit := by
  induction reached with
  | refl => exact .opened others
  | join account _ ih => exact ih.join account
  | step _ step ih => exact ih.step fitting step

/-- A run goes through each of its steps. -/
theorem Runs.at_step {a d : Desk σ} {before after : Log} {i : Nat} {event : Event}
    (run : Runs policy around a (before ++ (i, event) :: after) d) :
    ∃ b c, Runs policy around a before b ∧ Step around b i event c ∧
      Runs policy around c after d := by
  generalize whole : before ++ (i, event) :: after = log at run
  induction run generalizing after with
  | refl => cases (List.append_eq_nil_iff.1 whole).2
  | join account _ ih =>
    obtain ⟨b, c, first, step, rest⟩ := ih whole
    exact ⟨b, c, first, step, rest.join account⟩
  | step run last ih =>
    rcases List.eq_nil_or_concat after with rfl | ⟨middle, entry, rfl⟩
    · obtain ⟨rfl, same⟩ := List.append_inj' whole rfl
      cases same
      exact ⟨_, _, run, last, .refl⟩
    · rw [List.concat_eq_append, ← List.cons_append, ← List.append_assoc] at whole
      obtain ⟨same, isLast⟩ := List.append_inj' whole rfl
      cases isLast
      obtain ⟨b, c, first, step, rest⟩ := ih same
      rw [List.concat_eq_append]
      exact ⟨b, c, first, step, rest.step last⟩

theorem Runs.known {others : σ} {log : Log} {desk : Desk σ}
    (reached : Runs policy around (opened others) log desk) {i : Nat} {event : Event}
    (member : (i, event) ∈ log) : i < desk.callers.length := by
  induction reached with
  | refl => cases member
  | join account _ ih =>
    rw [Desk.join, List.length_append]
    exact Nat.lt_add_right _ (ih member)
  | step _ step ih =>
    obtain ⟨caller, moved, here, same, _⟩ := step.callers_eq
    rw [same, List.length_set]
    rcases List.mem_append.1 member with old | new
    · exact ih old
    · cases List.mem_singleton.1 new
      exact (List.getElem?_eq_some_iff.1 here).1

theorem Log.mem_of {log : Log} {i : Nat} {exchange : Services.Exchange} :
    exchange ∈ log.of i ↔ (i, .answered exchange) ∈ log := by
  simp only [Log.of, List.mem_filterMap]
  constructor
  · rintro ⟨⟨j, event⟩, member, is⟩
    split at is
    · rename_i same
      cases event with
      | answered => cases is; exact same ▸ member
      | _ => cases is
    · cases is
  · exact fun member => ⟨_, member, if_pos rfl⟩

theorem Log.of_snoc (log : Log) (i j : Nat) (event : Event) :
    Log.of (log ++ [(j, event)]) i =
      log.of i ++ if j = i then event.exchange?.toList else [] := by
  rw [Log.of, List.filterMap_append, Log.of]
  by_cases same : j = i <;> cases is : event.exchange? <;> simp [same, is]

/-- The calls of a caller and their answers are those of its program. -/
theorem Runs.follows {others : σ} {log : Log} {desk : Desk σ}
    (reached : Runs policy around (opened others) log desk) {i : Nat} {caller : Caller}
    (here : desk.callers[i]? = some caller) :
    (policy.validToken caller.account).run.Follows (log.of i) caller.rest := by
  induction reached generalizing caller with
  | refl => cases here
  | @join log b account run ih =>
    rcases of_join here with old | ⟨rfl, rfl⟩
    · exact ih old
    · have silent : log.of b.callers.length = [] := by
        refine List.filterMap_eq_nil_iff.2 fun entry member => if_neg fun same => ?_
        exact absurd (run.known member) (same ▸ Nat.lt_irrefl _)
      rw [silent]
      exact .stop _
  | @step log b c j event run step ih =>
    obtain ⟨before, moved, there, same, sameAccount, goesOn⟩ := step.callers_eq
    rw [same] at here
    rw [Log.of_snoc]
    rcases of_set here with ⟨rfl, rfl⟩ | ⟨apart, old⟩
    · rw [if_pos rfl, sameAccount]
      exact goesOn (ih there)
    · rw [if_neg apart, List.append_nil]
      exact ih old

variable {desk : Desk σ}

/-- Two callers that are inside of the lock of one account are the same caller. -/
theorem Sound.inside_unique (sound : desk.Sound policy fit) {i j : Nat} {caller other : Caller}
    (here : desk.callers[i]? = some caller) (there : desk.callers[j]? = some other)
    (same : other.account.id = caller.account.id) {lease leaseToo : Lease}
    (inside : caller.hold = .entered lease) (insideToo : other.hold = .entered leaseToo) :
    i = j := by
  have held := sound.guards.held _ (List.mem_of_getElem? here) lease (by rw [inside]; rfl)
  have heldToo := sound.guards.held _ (List.mem_of_getElem? there) leaseToo (by rw [insideToo]; rfl)
  rw [same, held] at heldToo
  obtain ⟨lock⟩ := lease
  obtain ⟨lockToo⟩ := leaseToo
  obtain rfl : lock = lockToo := Option.some.inj heldToo
  exact sound.guards.unique here there (by rw [inside]; rfl) (by rw [insideToo]; rfl)

/-- Two callers whose calls to an endpoint are in flight for one account are the same caller. -/
theorem Sound.asking_unique (sound : desk.Sound policy fit) {i j : Nat} {caller other : Caller}
    (here : desk.callers[i]? = some caller) (there : desk.callers[j]? = some other)
    (same : other.account.id = caller.account.id) (asks : caller.asking = true)
    (asksToo : other.asking = true) : i = j := by
  have inside {k : Nat} {caller : Caller} (here : desk.callers[k]? = some caller)
      (asks : caller.asking = true) : ∃ lease, caller.hold = .entered lease := by
    have member := List.mem_of_getElem? here
    obtain ⟨_, _, _, _, is⟩ := sound.asking caller member asks
    have stands := sound.stands caller member
    rw [is] at stands
    obtain ⟨lease, _, entered, _⟩ := stands.of_call id nofun
    exact ⟨lease, entered⟩
  obtain ⟨_, entered⟩ := inside here asks
  obtain ⟨_, enteredToo⟩ := inside there asksToo
  exact sound.inside_unique here there same entered enteredToo

end Desk

end Syndication
