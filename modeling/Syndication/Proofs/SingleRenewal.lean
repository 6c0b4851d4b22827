import Syndication.Proofs.Rehearsal
import Syndication.Proofs.Returns
import Syndication.Store.Accounts

namespace Syndication

/-- Between two times that are reached by adding seconds, every other one is. -/
theorem Timestamp.after_of_plusSeconds? {t u : Timestamp} {m n : Int}
    (added : t.plusSeconds? n = some u) (nonneg : 0 ≤ m) (less : m < n) :
    ∃ v, t.plusSeconds? m = some v ∧ u.after v = true := by
  have positive : 0 < n := by omega
  obtain ⟨lower, _, nanos⟩ := t.inCalendar
  obtain ⟨_, upper, _⟩ := u.inCalendar
  unfold plusSeconds? at added ⊢
  cases leap : t.inLeapSecond with
  | false =>
    simp only [leap, Bool.false_eq_true, if_false, of?_eq_some_iff] at added ⊢
    simp only [inLeapSecond, decide_eq_false_iff_not, not_le] at leap
    refine ⟨⟨t.seconds + m, t.nanos, by omega, by omega, .inl leap⟩, ⟨rfl, rfl⟩, ?_⟩
    simp only [after, before, added.1, Bool.or_eq_true, decide_eq_true_eq]
    omega
  | true =>
    simp only [leap, positive, if_true, of?_eq_some_iff] at added ⊢
    have short : t.nanos - nanosPerSecond < nanosPerSecond := by omega
    by_cases still : m = 0
    · subst still
      refine ⟨t, rfl, ?_⟩
      simp only [after, before, added.1, Bool.or_eq_true, decide_eq_true_eq]
      omega
    · have forward : 0 < m := by omega
      simp only [forward, if_true, of?_eq_some_iff]
      refine ⟨⟨t.seconds + m, _, by omega, by omega, .inl short⟩, ⟨rfl, rfl⟩, ?_⟩
      simp only [after, before, added.1, Bool.or_eq_true, decide_eq_true_eq]
      omega

/-- The upper half of the counts of 64 bits is negative when they are taken as signed ones. -/
theorem toInt_toInt64 (count : UInt64) : count.toInt64.toInt =
    if count.toNat < 9223372036854775808 then (count.toNat : Int)
    else count.toNat - 18446744073709551616 := by
  have bits : count.toInt64.toInt = count.toBitVec.toInt := rfl
  have same : count.toBitVec.toNat = count.toNat := rfl
  rw [bits, BitVec.toInt_eq_toNat_cond, same]
  split <;> split <;> omega

theorem lapse?_eq_some_iff {seconds length : Int} : lapse? seconds = some length ↔
    (-9223372036854775 ≤ seconds ∧ seconds ≤ 9223372036854775) ∧ seconds = length := by
  unfold lapse?
  split <;> simp_all

namespace RenewalPolicy

variable {buffer : UInt64} {limit : Nat} {policy : RenewalPolicy}

theorem of?_eq_some_iff : of? buffer limit = some policy ↔
    lapse? buffer.toInt64.toInt = some policy.buffer ∧ limit = policy.limit := by
  rw [of?, Option.map_eq_some_iff]
  constructor
  · rintro ⟨length, fits, rfl⟩
    exact ⟨fits, rfl⟩
  · rintro ⟨fits, same⟩
    exact ⟨policy.buffer, fits, by rw [same]⟩

theorem buffer_of? (valid : of? buffer limit = some policy) (short : buffer < maxTokenLifetime) :
    policy.buffer = buffer.toNat := by
  have low : buffer.toNat < 31622400 := short
  have fits := (of?_eq_some_iff.1 valid).1
  rw [← (lapse?_eq_some_iff.1 fits).2, toInt_toInt64, if_pos (by omega)]

end RenewalPolicy

namespace Account

variable {account renewed : Account} {grant : TokenGrant} {now : Timestamp}

theorem id_of_applyGrant? (granted : account.applyGrant? grant now = some renewed) :
    renewed.id = account.id := by
  obtain ⟨_, _, rfl⟩ := Option.map_eq_some_iff.1 granted
  rfl

theorem accessToken_of_applyGrant? (granted : account.applyGrant? grant now = some renewed) :
    renewed.accessToken = grant.accessToken := by
  obtain ⟨_, _, rfl⟩ := Option.map_eq_some_iff.1 granted
  rfl

/-- A token that is granted for longer than the buffer is not renewed again at the same time. -/
theorem needsRefresh?_of_applyGrant? (granted : account.applyGrant? grant now = some renewed)
    {buffer : Nat} (outlives : buffer < (min grant.expiresIn maxTokenLifetime).toNat) :
    renewed.needsRefresh? buffer now = some false := by
  obtain ⟨expiry, added, rfl⟩ := Option.map_eq_some_iff.1 granted
  obtain ⟨horizon, reached, after⟩ :=
    Timestamp.after_of_plusSeconds? added (m := buffer) (by omega) (by exact_mod_cast outlives)
  simp [needsRefresh?, reached, after]

end Account

namespace AccountStore

theorem id_of_find? {store : AccountStore} {id : AccountId} {account : Account}
    (found : store.find? id = some account) : account.id = id := by
  simpa using List.find?_some found

theorem find?_replace (account : Account) (rows : List Account) (id : AccountId) :
    (replace account rows).find? (·.id == id) =
      (rows.find? (·.id == id)).map fun row => if row.id = account.id then account else row := by
  have sameTest : (fun row : Account => row.id == id) ∘
      (fun row => if row.id = account.id then account else row) = fun row => row.id == id := by
    funext row
    by_cases same : row.id = account.id <;> simp [same]
  rw [replace, List.find?_map, sameTest]

section Save

variable {store later : AccountStore} {account : Account}

theorem of_save (saved : store.save account = .ok later) :
    (∃ row, store.find? account.id = some row) ∧ later.rows = replace account store.rows := by
  unfold save at saved
  split at saved
  · rename_i has
    cases saved
    exact ⟨Option.isSome_iff_exists.1 has, rfl⟩
  · cases saved

theorem find?_of_save (saved : store.save account = .ok later) :
    later.find? account.id = some account := by
  obtain ⟨⟨row, found⟩, replaced⟩ := of_save saved
  have same := id_of_find? found
  rw [find?] at found ⊢
  rw [replaced, find?_replace, found, Option.map_some, if_pos same]

theorem find?_of_save_of_ne (saved : store.save account = .ok later) {id : AccountId}
    (apart : account.id ≠ id) : later.find? id = store.find? id := by
  obtain ⟨_, replaced⟩ := of_save saved
  rw [find?, find?, replaced, find?_replace]
  cases found : store.rows.find? (·.id == id) with
  | none => rfl
  | some row =>
    have kept : row.id ≠ account.id := fun same => apart (same.symm.trans (id_of_find? found))
    rw [Option.map_some, if_neg kept]

end Save

/-- A store that works, beside a clock that stands still. Nobody else writes to the store. -/
def Works (now : Timestamp) : Surroundings Services AccountStore
  | store, .records .now, time, later => time = now ∧ later = store
  | store, .getAccount id, found, later => found = .ok (store.find? id) ∧ later = store
  | store, .saveAccount account, .ok (), later => store.save account = .ok later
  | store, .saveAccount account, .error fault, later =>
    store.save account = .error fault ∧ later = store
  | store, _, _, later => later = store

variable {now : Timestamp}

theorem works_fitting : Desk.Fitting (Works now) fun id account => account.id = id where
  reads answered := by
    obtain ⟨found, _⟩ := answered
    exact id_of_find? (Except.ok.inj found).symm
  renews fits granted := (Account.id_of_applyGrant? granted).trans fits

theorem works_replying : Desk.Replying (Works now) where
  onLocks store c answer onLocks := by
    cases c with
    | lease | enter | leave | giveBack | sweep => exact ⟨store, rfl⟩
    | _ => cases onLocks
  elsewhere store c elsewhere := by
    have fault : ServiceFault := .database ""
    cases c with
    | lease | enter | leave | giveBack | sweep => exact absurd trivial elsewhere
    | records c =>
      cases c with
      | now => exact ⟨now, store, rfl, rfl⟩
      | freshId => exact ⟨.ofNat 0, store, rfl⟩
      | _ => exact ⟨.error fault, store, rfl⟩
    | getAccount id => exact ⟨_, store, rfl, rfl⟩
    | saveAccount account =>
      cases saved : store.save account with
      | ok later => exact ⟨.ok (), later, saved⟩
      | error fault => exact ⟨.error fault, store, saved, rfl⟩
    | renew => exact ⟨.timedOut, store, rfl⟩
    | publish => exact ⟨.error (.internal ""), store, rfl⟩

/-- What is stored for an account stays unless that account is saved. -/
theorem Works.find?_eq {store later : AccountStore} {c : ServiceCall} {answer : c.Answer}
    (answered : Works now store c answer later) {id : AccountId}
    (apart : ∀ account, c = .saveAccount account → account.id ≠ id) :
    later.find? id = store.find? id := by
  cases c with
  | records c =>
    cases c with
    | now => rw [answered.2]
    | _ => rw [show later = store from answered]
  | getAccount => rw [answered.2]
  | saveAccount account =>
    match answer with
    | .ok () => exact find?_of_save_of_ne answered (apart account rfl)
    | .error fault => rw [answered.2]
  | _ => rw [show later = store from answered]

end AccountStore

namespace Desk

/-- A call to a token endpoint went out, or was answered. -/
def Event.IsRenewal : Event → Prop
  | .asked => True
  | .answered exchange => exchange.1.isRenewal = true
  | .unwound => False

/-- A caller with this copy found that the token has to be renewed, or entered the lock. -/
def Event.Passes (policy : RenewalPolicy) (copy : Account) : Event → Prop
  | .answered ⟨.records .now, time⟩ => copy.needsRefresh? policy.buffer time = some true
  | .answered ⟨.enter _, _⟩ => True
  | _ => False

/-- A caller got past its copy or into the lock. -/
def Log.Passes (policy : RenewalPolicy) (log : Log) (i : Nat) (copy : Account) : Prop :=
  ∃ event, (i, event) ∈ log ∧ event.Passes policy copy

theorem Log.passes_snoc {policy : RenewalPolicy} {log : Log} {i j : Nat} {event : Event}
    {copy : Account} : Log.Passes policy (log ++ [(i, event)]) j copy ↔
      log.Passes policy j copy ∨ i = j ∧ event.Passes policy copy := by
  constructor
  · rintro ⟨found, member, passes⟩
    rcases List.mem_append.1 member with old | new
    · exact .inl ⟨found, old, passes⟩
    · cases List.mem_singleton.1 new
      exact .inr ⟨rfl, passes⟩
  · rintro (⟨found, member, passes⟩ | ⟨rfl, passes⟩)
    · exact ⟨found, List.mem_append_left _ member, passes⟩
    · exact ⟨event, by simp, passes⟩

/-- What may be left of the work inside the lock when this account is stored. -/
inductive Resting (policy : RenewalPolicy) (row : Account) :
    Program Services (Except PublishError Secret) → Prop
  | reading : Resting policy row (policy.validTokenInside row.id).run
  | read : Resting policy row (policy.validTokenOf row.id row).run
  | done : Resting policy row (.done (.ok row.accessToken))

namespace Resting

variable {policy : RenewalPolicy} {row : Account} {c : ServiceCall}
  {work : c.Answer → Program Services (Except PublishError Secret)}

theorem call_eq (resting : Resting policy row (.call c work)) :
    c = .getAccount row.id ∨ c = .records .now := by
  generalize whole : Program.call (I := Services) c work = rest at resting
  cases resting with
  | reading =>
    rw [RenewalPolicy.validTokenInside_run] at whole
    cases whole
    exact .inl rfl
  | read =>
    rw [RenewalPolicy.validTokenOf_run] at whole
    cases whole
    exact .inr rfl
  | done => cases whole

theorem elsewhere (resting : Resting policy row (.call c work)) : ¬ c.OnLocks := by
  rcases resting.call_eq with rfl | rfl <;> exact id

/-- Nothing is renewed while the account that is stored has a token that outlives the buffer. -/
theorem answer {now : Timestamp} {store later : AccountStore} {answer : c.Answer}
    (resting : Resting policy row (.call c work)) (stored : store.find? row.id = some row)
    (content : row.needsRefresh? policy.buffer now = some false)
    (answered : AccountStore.Works now store c answer later) :
    Resting policy row (work answer) := by
  generalize whole : Program.call (I := Services) c work = rest at resting
  cases resting with
  | reading =>
    rw [RenewalPolicy.validTokenInside_run] at whole
    cases whole
    obtain ⟨rfl, _⟩ := answered
    rw [stored]
    exact .read
  | read =>
    rw [RenewalPolicy.validTokenOf_run] at whole
    cases whole
    obtain ⟨rfl, _⟩ := answered
    dsimp only
    rw [content]
    exact .done
  | done => cases whole

end Resting

variable {policy : RenewalPolicy} {now : Timestamp} {row : Account} {saver : Nat} {log : Log}

/-- Whether a caller has to return the token that was saved: it saved it, or it got past its copy
or into the lock later. -/
def Late (policy : RenewalPolicy) (saver : Nat) (log : Log) (i : Nat) (copy : Account) : Prop :=
  i = saver ∨ log.Passes policy i copy

theorem Late.of_snoc {i j : Nat} {event : Event} {copy : Account}
    (late : Late policy saver (log ++ [(j, event)]) i copy)
    (new : ¬ (j = i ∧ event.Passes policy copy)) : Late policy saver log i copy :=
  late.imp_right fun passes => (Log.passes_snoc.1 passes).resolve_right new

/-- A caller that finds the token which was saved. -/
def resting (policy : RenewalPolicy) (row : Account) (saver : Nat) (log : Log) (i : Nat)
    (copy : Account) : Manner where
  inside := Resting policy row
  elsewhere := Resting.elsewhere
  ends outcome := Late policy saver log i copy → outcome = .ok row.accessToken
  early := ¬ Late policy saver log i copy

/-- What holds on since an account was saved with a token that outlives the buffer. The log is the
one since then. -/
structure Settled (policy : RenewalPolicy) (row : Account) (saver : Nat) (log : Log)
    (desk : Desk AccountStore) : Prop where
  sound : desk.Sound policy fun id account => account.id = id
  stored : desk.others.find? row.id = some row
  stands : ∀ i caller, desk.callers[i]? = some caller → caller.account.id = row.id →
    Stands policy caller.account (resting policy row saver log i caller.account) caller.rest
      caller.hold
  silent : ∀ i event, (i, event) ∈ log → event.IsRenewal →
    ∀ caller, desk.callers[i]? = some caller → caller.account.id ≠ row.id
  known : ∀ i, i = saver ∨ (∃ event, (i, event) ∈ log) → i < desk.callers.length

namespace Settled

variable {desk : Desk AccountStore}

theorem join (settled : desk.Settled policy row saver log) (account : Account) :
    (desk.join policy account).Settled policy row saver log where
  sound := settled.sound.join account
  stored := settled.stored
  stands i caller here own := by
    rcases of_join here with old | ⟨rfl, rfl⟩
    · exact settled.stands i caller old own
    · refine .begun ?_
      rintro (rfl | ⟨event, member, _⟩)
      · exact (settled.known _ (.inl rfl)).false
      · exact (settled.known _ (.inr ⟨event, member⟩)).false
  silent i event member renewal caller here := by
    rcases of_join here with old | ⟨rfl, _⟩
    · exact settled.silent i event member renewal caller old
    · exact absurd (settled.known _ (.inr ⟨event, member⟩)) (Nat.lt_irrefl _)
  known i is := by
    have bound := settled.known i is
    simp only [Desk.join, List.length_append]
    omega

/-- A step of one caller leaves a settled desk if the caller stands where it may, and if it calls no
endpoint for the account that was saved. -/
theorem set {later : Desk AccountStore} {i : Nat} {event : Event} {caller moved : Caller}
    (settled : desk.Settled policy row saver log) (here : desk.callers[i]? = some caller)
    (same : later.callers = desk.callers.set i moved) (sameId : moved.account = caller.account)
    (sound : later.Sound policy fun id account => account.id = id)
    (stored : later.others.find? row.id = some row)
    (stands : caller.account.id = row.id → Stands policy moved.account
      (resting policy row saver (log ++ [(i, event)]) i moved.account) moved.rest moved.hold)
    (silent : event.IsRenewal → caller.account.id ≠ row.id) :
    later.Settled policy row saver (log ++ [(i, event)]) where
  sound := sound
  stored := stored
  stands j other there own := by
    rw [same] at there
    rcases of_set there with ⟨rfl, rfl⟩ | ⟨moves, old⟩
    · exact stands (sameId ▸ own)
    · have new : ¬ (i = j ∧ event.Passes policy other.account) := fun is => moves is.1
      exact (settled.stands j other old own).mono (fun _ _ _ => id)
        (fun _ ends late => ends (late.of_snoc new)) fun early late => early (late.of_snoc new)
  silent j found member renewal other there := by
    rw [same] at there
    rcases List.mem_append.1 member with old | new
    · rcases of_set there with ⟨rfl, rfl⟩ | ⟨_, unmoved⟩
      · rw [sameId]
        exact settled.silent _ found old renewal caller here
      · exact settled.silent j found old renewal other unmoved
    · cases List.mem_singleton.1 new
      rcases of_set there with ⟨_, rfl⟩ | ⟨moves, _⟩
      · rw [sameId]
        exact silent renewal
      · exact absurd rfl moves
  known j is := by
    rw [same, List.length_set]
    rcases is with saver | ⟨found, member⟩
    · exact settled.known j (.inl saver)
    · rcases List.mem_append.1 member with old | new
      · exact settled.known j (.inr ⟨found, old⟩)
      · cases List.mem_singleton.1 new
        exact (List.getElem?_eq_some_iff.1 here).1

/-- Callers on the account that was saved neither renew it nor save it. -/
theorem apart (settled : desk.Settled policy row saver log) {i : Nat} {account : Account}
    {c : ServiceCall} {next : c.Answer → Program Services (Except PublishError Secret)}
    {hold : Hold} {asking : Bool}
    (here : desk.callers[i]? = some ⟨account, .call c next, hold, asking⟩)
    (renews : c.isRenewal = true ∨ ∃ renewed, c = .saveAccount renewed) : account.id ≠ row.id := by
  intro own
  have elsewhere : ¬ c.OnLocks ∧ c ≠ .records .now ∧ c ≠ .getAccount row.id := by
    rcases renews with renews | ⟨renewed, rfl⟩
    · cases c with
      | renew => exact ⟨id, nofun, nofun⟩
      | _ => cases renews
    · exact ⟨id, nofun, nofun⟩
  obtain ⟨_, _, _, work⟩ := (settled.stands i _ here own).of_call elsewhere.1 elsewhere.2.1
  exact work.call_eq.elim elsewhere.2.2 elsewhere.2.1

/-- The account that was saved stays as it is, and callers go on as they rest. -/
theorem step {a b : Desk AccountStore} {i : Nat} {event : Event}
    (settled : a.Settled policy row saver log)
    (content : row.needsRefresh? policy.buffer now = some false)
    (step : Step (AccountStore.Works now) a i event b) :
    b.Settled policy row saver (log ++ [(i, event)]) := by
  have sound := settled.sound.step AccountStore.works_fitting step
  cases step with
  | ask here =>
    have apart := settled.apart here (.inl rfl)
    exact settled.set here rfl rfl sound settled.stored (absurd · apart) fun _ => apart
  | @answer account c hold answer next locks others here answered around =>
    refine settled.set here rfl rfl sound ?_ (fun own => ?_) fun renewal =>
      settled.apart here (.inl renewal)
    · rw [AccountStore.Works.find?_eq around, settled.stored]
      rintro renewed rfl
      have apart := settled.apart here (.inr ⟨renewed, rfl⟩)
      obtain ⟨_, _, _, working⟩ :=
        (settled.sound.stands _ (List.mem_of_getElem? here)).of_call id nofun
      rw [working.of_save.1]
      exact apart
    · have stands : Stands policy account (resting policy row saver log i account) (.call c next)
        hold := settled.stands i _ here own
      refine (stands.answer answered ?_ ?_ ?_ ?_ ?_).2
      · rintro time ⟨⟩ content early late
        exact early (late.of_snoc fun new => content new.2)
      · rintro lease rfl
        rw [show account.id = row.id from own]
        exact .reading
      · exact fun work resting => resting.answer settled.stored content around
      · rintro lease outcome rfl resting -
        cases resting
        rfl
      -- giving the lease back and sweeping gets nobody past anything
      · rintro outcome (⟨lease, rfl⟩ | rfl) ends late
        · exact ends (late.of_snoc And.right)
        · exact ends (late.of_snoc And.right)
  | leave here =>
    refine settled.set here rfl rfl sound settled.stored (fun own => ?_) nofun
    obtain ⟨p, work, is⟩ := (settled.stands i _ here own).of_entered
    cases work with
    | reading => cases is
    | read => cases is
    | done => cases is
  | giveBack here =>
    refine settled.set here rfl rfl sound settled.stored (fun own => ?_) nofun
    have early := (settled.stands i _ here own).of_overflow
    exact .unwinding (fun late => early (late.of_snoc And.right)) rfl

/-- A caller that saves an account leaves a settled desk: nobody else is inside of the lock. -/
theorem of_save {a b : Desk AccountStore} (sound : a.Sound policy fun id account => account.id = id)
    (step : Step (AccountStore.Works now) a saver (.answered ⟨.saveAccount row, .ok ()⟩) b) :
    b.Settled policy row saver [] := by
  have soundToo := sound.step AccountStore.works_fitting step
  cases step with
  | @answer account _ hold _ next _ _ here answered around =>
    have stands := sound.stands _ (List.mem_of_getElem? here)
    obtain ⟨lease, work, inside, working⟩ := stands.of_call id nofun
    have own : row.id = account.id := working.of_save.1
    refine ⟨soundToo, AccountStore.find?_of_save around, fun i caller there same => ?_,
      fun _ _ member => absurd member List.not_mem_nil, ?_⟩
    · rcases of_set there with ⟨rfl, rfl⟩ | ⟨apart, there⟩
      · have stands : Stands policy account (manner policy (fun id account => account.id = id)
          account.id) (.call (.saveAccount row) next) hold := stands
        refine (stands.answer answered ?_ ?_ ?_ ?_ ?_).2
        · rintro time ⟨⟩
        · rintro lease ⟨⟩
        · intro work working
          rw [working.of_save.2]
          exact .done
        · rintro lease outcome ⟨⟩
        · rintro outcome (⟨_, is⟩ | is) <;> cases is
      · have notLate : ¬ Late policy saver [] i caller.account := by
          rintro (rfl | ⟨_, member, _⟩)
          · exact apart rfl
          · cases member
        refine (sound.stands _ (List.mem_of_getElem? there)).mono ?_ ?_ ?_
        -- the one who saved is inside of the lock, and whoever enters it from now on reads what it
        -- saved
        · intro p leaseToo insideToo _
          have one := sound.inside_unique here there (same.trans own) inside insideToo
          exact absurd one apart
        · exact fun _ _ late => absurd late notLate
        · exact fun _ => notLate
    · rintro i (rfl | ⟨_, member⟩)
      · rw [List.length_set]
        exact (List.getElem?_eq_some_iff.1 here).1
      · cases member

/-- What holds on since the save holds on through a run. -/
theorem run {a b : Desk AccountStore} {after : Log} (settled : a.Settled policy row saver [])
    (content : row.needsRefresh? policy.buffer now = some false)
    (run : Runs policy (AccountStore.Works now) a after b) : b.Settled policy row saver after := by
  induction run with
  | refl => exact settled
  | join account _ ih => exact ih.join account
  | step _ step ih => exact ih.step content step

end Settled

/-- The caller with this number returned this token. -/
def Returned (i : Nat) (token : Secret) (desk : Desk AccountStore) : Prop :=
  ∃ caller, desk.callers[i]? = some caller ∧ caller.rest = .done (.ok token)

/-- A late caller that is through returned the token that was saved. -/
theorem eq_of_late {i : Nat} {copy : Account} {hold : Hold}
    {rest : Program Services (Except PublishError Secret)}
    (stands : Stands policy copy (resting policy row saver log i copy) rest hold)
    (late : Late policy saver log i copy) (isOver : rest.IsOver) :
    rest = .done (.ok row.accessToken) := by
  cases stands with
  | begun early => exact absurd late early
  | inside lease resting => cases resting <;> cases isOver
  | through is => rw [is.resolve_left (absurd late) late]
  | unwinding early => exact absurd late early
  | apart | waiting | left | sweeping => cases isOver

/-- The caller with this number has to return the token that was saved. -/
def Owes (policy : RenewalPolicy) (row : Account) (saver i : Nat) (desk : Desk AccountStore) :
    Prop :=
  ∃ log caller, desk.Settled policy row saver log ∧ desk.callers[i]? = some caller ∧
    caller.account.id = row.id ∧ Late policy saver log i caller.account

theorem Owes.step {a b : Desk AccountStore} {i j : Nat} {event : Event}
    (owes : a.Owes policy row saver i)
    (content : row.needsRefresh? policy.buffer now = some false)
    (step : Step (AccountStore.Works now) a j event b) : b.Owes policy row saver i := by
  obtain ⟨log, caller, settled, here, own, late⟩ := owes
  have lateStill : Late policy saver (log ++ [(j, event)]) i caller.account :=
    late.imp_right fun passes => Log.passes_snoc.2 (.inl passes)
  obtain ⟨before, moved, there, same, sameAccount, _⟩ := step.callers_eq
  by_cases moves : j = i
  · subst moves
    cases here.symm.trans there
    refine ⟨_, moved, settled.step content step, ?_, sameAccount ▸ own, sameAccount ▸ lateStill⟩
    rw [same, List.getElem?_set_self (List.getElem?_eq_some_iff.1 here).1]
  · refine ⟨_, caller, settled.step content step, ?_, own, lateStill⟩
    rw [same, List.getElem?_set_ne moves, here]

/-- A caller that has to return the token that was saved surely does so. -/
theorem Owes.surely {desk : Desk AccountStore} {i : Nat} (owes : desk.Owes policy row saver i)
    (content : row.needsRefresh? policy.buffer now = some false) :
    Surely (AccountStore.Works now) (Returned i row.accessToken) desk := by
  refine .of_quiet owes (fun owes step => owes.step content step) fun owes quiet => ?_
  obtain ⟨log, caller, settled, here, own, late⟩ := owes
  have isOver := settled.sound.over_of_quiet AccountStore.works_replying quiet
    (List.mem_of_getElem? here)
  exact ⟨caller, here, eq_of_late (settled.stands i caller here own) late isOver⟩

theorem Runs.clock {a b : Desk AccountStore} {i : Nat} {time : Timestamp}
    (run : Runs policy (AccountStore.Works now) a log b)
    (member : (i, .answered ⟨.records .now, time⟩) ∈ log) : time = now := by
  induction run with
  | refl => cases member
  | join _ _ ih => exact ih member
  | step _ step ih =>
    rcases List.mem_append.1 member with old | new
    · exact ih old
    · cases List.mem_singleton.1 new
      cases step with
      | answer _ _ around => exact around.1

/-- What a caller saved is an account with the token that it was granted, at the time of the
clock. -/
theorem Runs.granted {store : AccountStore} {before : Log} {a b : Desk AccountStore}
    (run : Runs policy (AccountStore.Works now) (opened store) before a)
    (step : Step (AccountStore.Works now) a saver (.answered ⟨.saveAccount row, .ok ()⟩) b)
    {platform : Platform} {token : Secret} {limit : Nat} {grant : TokenGrant}
    (member : (saver, .answered ⟨.renew platform token limit, .answered (.ok grant)⟩) ∈ before) :
    ∃ account, Account.applyGrant? account grant now = some row := by
  cases step with
  | answer here =>
    obtain ⟨time, lease, account, looked, refresh, granted, log, applied⟩ :=
      RenewalPolicy.validToken_saves (run.follows here)
    have lookedUp : (⟨.records .now, looked⟩ : Services.Exchange) ∈ before.of saver := by simp [log]
    obtain rfl : looked = now := run.clock (Log.mem_of.1 lookedUp)
    obtain ⟨_, rfl⟩ : (platform = account.platform ∧ token = refresh ∧ limit = policy.limit) ∧
        grant = granted := by simpa [log] using Log.mem_of.2 member
    exact ⟨account, applied⟩

/-- Callers share one renewal. Take any number of callers, each with any copy of its account, any
order of their steps, and any replies of the endpoints. At no time are the calls of two callers to
token endpoints in flight for the same account. Take a store that works and a clock that stands
still besides, and a caller that saves an account with a token that it was granted for longer than
the buffer. From then on no caller on that account calls an endpoint, and every one that finds that
its copy has to be renewed, or that enters the lock, surely returns that token, as does the one that
saved it. -/
theorem single_renewal (policy : RenewalPolicy) :
    (∀ {σ : Type} {around : Surroundings Services σ} {others : σ} {log : Log} {desk : Desk σ}
      {i j : Nat} {caller other : Caller}, Runs policy around (opened others) log desk →
      desk.callers[i]? = some caller → desk.callers[j]? = some other → i ≠ j →
      caller.account.id = other.account.id → ¬ (caller.asking = true ∧ other.asking = true)) ∧
    ∀ {buffer : UInt64} {limit : Nat}, RenewalPolicy.of? buffer limit = some policy →
    ∀ {now : Timestamp} {store : AccountStore} {before after : Log} {desk : Desk AccountStore}
      {saver : Nat} {renewed : Account} {platform : Platform} {token : Secret} {limit : Nat}
      {grant : TokenGrant},
      Runs policy (AccountStore.Works now) (opened store)
        (before ++ (saver, .answered ⟨.saveAccount renewed, .ok ()⟩) :: after) desk →
      (saver, .answered ⟨.renew platform token limit, .answered (.ok grant)⟩) ∈ before →
      buffer < min grant.expiresIn maxTokenLifetime →
      ∀ {i : Nat} {caller : Caller}, desk.callers[i]? = some caller →
        caller.account.id = renewed.id →
        (∀ event, (i, event) ∈ after → ¬ event.IsRenewal) ∧
        (i = saver ∨ after.Passes policy i caller.account →
          Surely (AccountStore.Works now) (Returned i grant.accessToken) desk) := by
  constructor
  · rintro σ around others log desk i j caller other reached here there apart same ⟨asks, asksToo⟩
    have sound : desk.Sound policy fun _ _ => True :=
      reached.sound ⟨fun _ => trivial, fun _ _ => trivial⟩
    exact apart (sound.asking_unique here there same.symm asks asksToo)
  · intro buffer limit valid now store before after desk saver renewed platform token _ grant
      reached granted outlives i caller here own
    obtain ⟨a, b, first, step, rest⟩ := reached.at_step
    obtain ⟨account, applied⟩ := first.granted step granted
    have content : renewed.needsRefresh? policy.buffer now = some false := by
      have short : buffer < maxTokenLifetime := UInt64.lt_of_lt_of_le outlives Std.min_le_right
      rw [RenewalPolicy.buffer_of? valid short]
      exact Account.needsRefresh?_of_applyGrant? applied (UInt64.lt_iff_toNat_lt.1 outlives)
    have settled := (Settled.of_save (first.sound AccountStore.works_fitting) step).run content rest
    refine ⟨fun event member renewal => settled.silent i event member renewal caller here own,
      fun late => ?_⟩
    rw [← Account.accessToken_of_applyGrant? applied]
    exact Owes.surely ⟨after, caller, settled, here, own, late⟩ content

end Desk

namespace Rehearsal.Cast

open Desk

/-- The account without a known expiry of its token, so that the token has to be renewed. -/
def expired : Account := { account with refreshToken := some ⟨"refresh-1"⟩, expiresAt := none }

def hour : TokenGrant := ⟨⟨"token-2"⟩, 3600, none⟩

/-- The account with the token that is granted for an hour. -/
def renewed : Account :=
  { expired with accessToken := ⟨"token-2"⟩, expiresAt := some ⟨3600, 0, by decide⟩ }

/-- Two callers get past their copies, and the first one is granted a token. -/
def grants : Log :=
  [(0, .answered ⟨.records .now, morning⟩), (0, .answered ⟨.lease expired.id, ⟨0⟩⟩),
    (1, .answered ⟨.records .now, morning⟩), (1, .answered ⟨.lease expired.id, ⟨0⟩⟩),
    (0, .answered ⟨.enter ⟨0⟩, ()⟩), (0, .answered ⟨.getAccount expired.id, .ok (some expired)⟩),
    (0, .answered ⟨.records .now, morning⟩), (0, .asked),
    (0, .answered ⟨.renew .youtube ⟨"refresh-1"⟩ 15000, .answered (.ok hour)⟩)]

/-- The first caller leaves the lock, and the second one enters it. -/
def follows : Log := [(0, .answered ⟨.leave ⟨0⟩, ()⟩), (1, .answered ⟨.enter ⟨0⟩, ()⟩)]

end Rehearsal.Cast

namespace Desk

open Rehearsal in
/-- Two callers come with copies of an account that has to be renewed. While the first one asks the
endpoint the second one waits for the lock. It enters the lock after the first one has saved the
renewed account, and surely returns the token of that account. -/
theorem single_renewal_two :
    (∃ log desk caller other,
      Runs Cast.engine.renewal (AccountStore.Works Cast.morning) (opened ⟨[Cast.expired], 0⟩) log
        desk ∧ desk.callers[0]? = some caller ∧ desk.callers[1]? = some other ∧
      caller.asking = true ∧ ¬ (caller.asking = true ∧ other.asking = true)) ∧
    ∃ desk,
      Runs Cast.engine.renewal (AccountStore.Works Cast.morning) (opened ⟨[Cast.expired], 0⟩)
        (Cast.grants ++ (0, .answered ⟨.saveAccount Cast.renewed, .ok ()⟩) :: Cast.follows) desk ∧
      (∀ event, (1, event) ∈ Cast.follows → ¬ event.IsRenewal) ∧
      Surely (AccountStore.Works Cast.morning) (Returned 1 ⟨"token-2"⟩) desk := by
  have opens : Runs Cast.engine.renewal (AccountStore.Works Cast.morning)
      (opened ⟨[Cast.expired], 0⟩) [] _ := .join Cast.expired (.join Cast.expired .refl)
  have looks := opens.step (show Step _ _ 0 (.answered ⟨.records .now, Cast.morning⟩) _ from
    .answer rfl rfl ⟨rfl, rfl⟩)
  have leases := looks.step (show Step _ _ 0 (.answered ⟨.lease Cast.expired.id, ⟨0⟩⟩) _ from
    .answer rfl rfl rfl)
  have looksToo := leases.step (show Step _ _ 1 (.answered ⟨.records .now, Cast.morning⟩) _ from
    .answer rfl rfl ⟨rfl, rfl⟩)
  have waits := looksToo.step (show Step _ _ 1 (.answered ⟨.lease Cast.expired.id, ⟨0⟩⟩) _ from
    .answer rfl rfl rfl)
  have enters := waits.step (show Step _ _ 0 (.answered ⟨.enter ⟨0⟩, ()⟩) _ from
    .answer rfl ⟨rfl, rfl⟩ rfl)
  have reads := enters.step (show Step _ _ 0
    (.answered ⟨.getAccount Cast.expired.id, .ok (some Cast.expired)⟩) _ from
    .answer rfl rfl ⟨rfl, rfl⟩)
  have looksAgain := reads.step (show Step _ _ 0 (.answered ⟨.records .now, Cast.morning⟩) _ from
    .answer rfl rfl ⟨rfl, rfl⟩)
  have asks := looksAgain.step (show Step _ _ 0 .asked _ from .ask rfl)
  have granted := asks.step (show Step _ _ 0
    (.answered ⟨.renew .youtube ⟨"refresh-1"⟩ 15000, .answered (.ok Cast.hour)⟩) _ from
    .answer rfl rfl rfl)
  have saves := granted.step (show Step _ _ 0 (.answered ⟨.saveAccount Cast.renewed, .ok ()⟩) _ from
    .answer rfl rfl rfl)
  have leaves := saves.step (show Step _ _ 0 (.answered ⟨.leave ⟨0⟩, ()⟩) _ from
    .answer rfl rfl rfl)
  have goesIn := leaves.step (show Step _ _ 1 (.answered ⟨.enter ⟨0⟩, ()⟩) _ from
    .answer rfl ⟨rfl, rfl⟩ rfl)
  obtain ⟨desk, caller, reached, here, own⟩ : ∃ desk caller, Runs Cast.engine.renewal
      (AccountStore.Works Cast.morning) (opened ⟨[Cast.expired], 0⟩)
      (Cast.grants ++ (0, .answered ⟨.saveAccount Cast.renewed, .ok ()⟩) :: Cast.follows) desk ∧
      desk.callers[1]? = some caller ∧ caller.account = Cast.expired := ⟨_, _, goesIn, rfl, rfl⟩
  obtain ⟨alone, shared⟩ := single_renewal Cast.engine.renewal
  have first := alone (i := 0) (j := 1) asks rfl rfl (by decide) rfl
  refine ⟨⟨_, _, _, _, asks, rfl, rfl, rfl, first⟩, desk, reached, ?_⟩
  have valid : RenewalPolicy.of? 300 15000 = some Cast.engine.renewal := by decide
  have answered : (0, .answered ⟨.renew .youtube ⟨"refresh-1"⟩ 15000, .answered (.ok Cast.hour)⟩) ∈
    Cast.grants := by simp [Cast.grants]
  have outlives : 300 < min Cast.hour.expiresIn maxTokenLifetime := by decide
  obtain ⟨silent, returns⟩ := shared valid reached answered outlives here (by rw [own]; rfl)
  exact ⟨silent, returns (.inr ⟨.answered ⟨.enter ⟨0⟩, ()⟩, by simp [Cast.follows], trivial⟩)⟩

end Desk

end Syndication
