import Syndication.Proofs.Custody
import Syndication.Proofs.RowInvariant

namespace Syndication

namespace Account

variable {account : Account} {buffer : Int} {now : Timestamp}

/-- A token is kept when its expiry is known and after the buffer. -/
theorem needsRefresh?_eq_false_iff : account.needsRefresh? buffer now = some false ↔
    ∃ expiry horizon, account.expiresAt = some expiry ∧ now.plusSeconds? buffer = some horizon ∧
      expiry.after horizon = true := by
  unfold needsRefresh?
  split
  · rename_i unknown
    simp [unknown]
  · rename_i expiry known
    simp [known]

/-- It is not known whether a token is kept when its expiry is known and the buffer reaches beyond
the calendar. -/
theorem needsRefresh?_eq_none_iff : account.needsRefresh? buffer now = none ↔
    account.expiresAt.isSome = true ∧ now.plusSeconds? buffer = none := by
  unfold needsRefresh?
  split
  · rename_i unknown
    simp [unknown]
  · rename_i expiry known
    simp [known]

end Account

theorem Services.reading?_now (time : Timestamp) :
    Services.reading? ⟨.records .now, time⟩ = some time := rfl

theorem Services.mem_readings (time : Timestamp) (calls : List Services.Exchange) :
    time ∈ (⟨.records .now, time⟩ :: calls).filterMap Services.reading? :=
  List.mem_filterMap.2 ⟨_, List.mem_cons_self, reading?_now time⟩

/-- What a token endpoint granted. -/
def Services.granted? : Services.Exchange → Option TokenGrant
  | ⟨.renew .., .answered (.ok grant)⟩ => some grant
  | _ => none

/-- Why a token endpoint granted nothing, when it had so many milliseconds. -/
def TokenReply.refusal? (limit : Nat) : TokenReply → Option TokenError
  | .answered (.ok _) => none
  | .answered (.error error) => some error
  | .timedOut => some (.timeout (limit / 1000))

def ServiceCall.SavesNothing : ServiceCall → Prop
  | .saveAccount _ => False
  | _ => True

namespace RenewalPolicy

open Program

/-- The token of the account has to be renewed at this time, and there is a token to do it with. -/
def IsDue (policy : RenewalPolicy) (account : Account) (now : Timestamp) (refresh : Secret) : Prop :=
  account.needsRefresh? policy.buffer now = some true ∧ account.usableRefreshToken? = some refresh

/-- How the work goes on with an account that was read. -/
inductive Ending (policy : RenewalPolicy) (around : Surroundings Services AccountStore)
    (id : AccountId) (account : Account) (store : AccountStore) :
    List Services.Exchange → Option (Except PublishError Secret) → AccountStore → Prop
  | lost {now : Timestamp} : account.needsRefresh? policy.buffer now = none →
      Ending policy around id account store [⟨.records .now, now⟩] none store
  | kept {now : Timestamp} : account.needsRefresh? policy.buffer now = some false →
      Ending policy around id account store [⟨.records .now, now⟩]
        (some (.ok account.accessToken)) store
  | bare {now : Timestamp} : account.needsRefresh? policy.buffer now = some true →
      account.usableRefreshToken? = none →
      Ending policy around id account store [⟨.records .now, now⟩]
        (some (.error (.missingRefreshToken id))) store
  | refused {now : Timestamp} {refresh : Secret} {reply : TokenReply} {error : TokenError} :
      policy.IsDue account now refresh → reply.refusal? policy.limit = some error →
      Ending policy around id account store
        [⟨.records .now, now⟩, ⟨.renew account.platform refresh policy.limit, reply⟩]
        (some (.error (refused id error))) store
  /-- The token that was granted would expire outside the calendar. -/
  | endless {now : Timestamp} {refresh : Secret} {grant : TokenGrant} :
      policy.IsDue account now refresh → account.applyGrant? grant now = none →
      Ending policy around id account store [⟨.records .now, now⟩,
        ⟨.renew account.platform refresh policy.limit, .answered (.ok grant)⟩] none store
  | unsaved {now : Timestamp} {refresh : Secret} {grant : TokenGrant} {renewed : Account}
      {fault : ServiceFault} : policy.IsDue account now refresh →
      account.applyGrant? grant now = some renewed →
      around store (.saveAccount renewed) (.error fault) store →
      Ending policy around id account store [⟨.records .now, now⟩,
        ⟨.renew account.platform refresh policy.limit, .answered (.ok grant)⟩,
        ⟨.saveAccount renewed, .error fault⟩] (some (.error (.persistence fault))) store
  | renewed {now : Timestamp} {refresh : Secret} {grant : TokenGrant} {renewed : Account}
      {later : AccountStore} : policy.IsDue account now refresh →
      account.applyGrant? grant now = some renewed →
      around store (.saveAccount renewed) (.ok ()) later →
      Ending policy around id account store [⟨.records .now, now⟩,
        ⟨.renew account.platform refresh policy.limit, .answered (.ok grant)⟩,
        ⟨.saveAccount renewed, .ok ()⟩] (some (.ok renewed.accessToken)) later

/-- How the work inside the lock of an account ends. -/
inductive EndingInside (policy : RenewalPolicy) (around : Surroundings Services AccountStore)
    (id : AccountId) (store : AccountStore) :
    List Services.Exchange → Option (Except PublishError Secret) → AccountStore → Prop
  | unread {fault : ServiceFault} : around store (.getAccount id) (.error fault) store →
      EndingInside policy around id store [⟨.getAccount id, .error fault⟩]
        (some (.error (.persistence fault))) store
  | unknown : store.find? id = none →
      EndingInside policy around id store [⟨.getAccount id, .ok none⟩]
        (some (.error (.accountNotFound id))) store
  | read {account : Account} {calls : List Services.Exchange}
      {outcome : Option (Except PublishError Secret)} {later : AccountStore} :
      store.find? id = some account →
      Ending policy around id account store calls outcome later →
      EndingInside policy around id store (⟨.getAccount id, .ok (some account)⟩ :: calls) outcome
        later

/-- How a call for a valid token ends that came with a copy of the account. -/
inductive Ends (policy : RenewalPolicy) (around : Surroundings Services AccountStore)
    (copy : Account) (store : AccountStore) :
    List Services.Exchange → Option (Except PublishError Secret) → AccountStore → Prop
  | lost {time : Timestamp} : copy.needsRefresh? policy.buffer time = none →
      Ends policy around copy store [⟨.records .now, time⟩] none store
  | kept {time : Timestamp} : copy.needsRefresh? policy.buffer time = some false →
      Ends policy around copy store [⟨.records .now, time⟩] (some (.ok copy.accessToken)) store
  | inside {time : Timestamp} {lease : Lease} {inner cleaning : List Services.Exchange}
      {outcome : Option (Except PublishError Secret)} {later : AccountStore} :
      copy.needsRefresh? policy.buffer time = some true →
      EndingInside policy around copy.id store inner outcome later →
      (∀ exchange ∈ cleaning, exchange.1.OnLocks) →
      Ends policy around copy store
        (⟨.records .now, time⟩ :: ⟨.lease copy.id, lease⟩ :: ⟨.enter lease, ()⟩ ::
          (inner ++ cleaning)) outcome later

section

variable {policy : RenewalPolicy} {around : Surroundings Services AccountStore} {id : AccountId}
  {account copy : Account} {now : Timestamp} {store later : AccountStore}
  {calls : List Services.Exchange} {rest : Program Services (Except PublishError Secret)}

/-- Calls for a store of accounts are answered as `around` says, which is one way for it to answer
them. -/
def Plain (around : Surroundings Services AccountStore) : Prop :=
  ∀ {store later : AccountStore} {c : ServiceCall} {answer : c.Answer},
    around store c answer later → AccountStore.Answers store c answer later

theorem Plain.answers : Plain AccountStore.Answers := id

theorem Plain.eq_of_answered (plain : Plain around) {c : ServiceCall} {answer : c.Answer}
    (answered : around store c answer later) (noSave : c.SavesNothing) : later = store := by
  refine AccountStore.eq_of_answers (plain answered) ?_
  rintro account rfl
  exact noSave

theorem renewWith_ends (plain : Plain around) {refresh : Secret}
    (due : policy.IsDue account now refresh)
    (plays : (policy.renewWith id account now refresh).run.Plays around store calls rest later)
    (isOver : rest.IsOver) : ∃ outcome, rest = ended outcome ∧
      Ending policy around id account store (⟨.records .now, now⟩ :: calls) outcome later := by
  rw [renewWith_run] at plays
  cases plays with
  | stop => cases isOver
  | @call _ _ reply calls _ _ _ _ answered plays =>
    obtain rfl := plain.eq_of_answered answered trivial
    match reply with
    | .answered (.error error) =>
      cases plays
      exact ⟨some _, rfl, .refused due rfl⟩
    | .timedOut =>
      cases plays
      exact ⟨some _, rfl, .refused due rfl⟩
    | .answered (.ok grant) =>
      simp only [storeGrant_run] at plays
      split at plays
      · rename_i lost
        cases plays
        exact ⟨none, rfl, .endless due lost⟩
      · rename_i renewed granted
        rw [saveRenewed_run] at plays
        cases plays with
        | stop => cases isOver
        | @call _ _ saved calls _ _ _ _ answered plays =>
          match saved with
          | .error fault =>
            cases plays
            obtain rfl := plain answered
            exact ⟨some _, rfl, .unsaved due granted answered⟩
          | .ok () =>
            cases plays
            exact ⟨some _, rfl, .renewed due granted answered⟩

theorem validTokenOf_ends (plain : Plain around)
    (plays : (policy.validTokenOf id account).run.Plays around store calls rest later)
    (isOver : rest.IsOver) : ∃ outcome, rest = ended outcome ∧
      Ending policy around id account store calls outcome later := by
  rw [validTokenOf_run] at plays
  cases plays with
  | stop => cases isOver
  | @call _ _ now calls _ _ _ _ answered plays =>
    obtain rfl := plain.eq_of_answered answered trivial
    dsimp only at plays
    split at plays
    · rename_i lost
      cases plays
      exact ⟨none, rfl, .lost lost⟩
    · rename_i needed
      split at plays
      · rename_i bare
        cases plays
        exact ⟨some _, rfl, .bare needed bare⟩
      · rename_i refresh usable
        exact renewWith_ends plain ⟨needed, usable⟩ plays isOver
    · rename_i kept
      cases plays
      exact ⟨some _, rfl, .kept kept⟩

theorem validTokenInside_ends (plain : Plain around)
    (plays : (policy.validTokenInside id).run.Plays around store calls rest later)
    (isOver : rest.IsOver) : ∃ outcome, rest = ended outcome ∧
      EndingInside policy around id store calls outcome later := by
  rw [validTokenInside_run] at plays
  cases plays with
  | stop => cases isOver
  | @call _ _ found calls _ _ _ _ answered plays =>
    have same := plain.eq_of_answered answered trivial
    subst same
    match found with
    | .error fault =>
      cases plays
      exact ⟨some _, rfl, .unread answered⟩
    | .ok none =>
      cases plays
      exact ⟨some _, rfl, .unknown (plain answered).1.symm⟩
    | .ok (some account) =>
      obtain ⟨outcome, is, ending⟩ := validTokenOf_ends plain plays isOver
      exact ⟨outcome, is, .read (plain answered).1.symm ending⟩

/-- Giving up the lock makes calls on locks only, and keeps the store and the outcome. -/
theorem cleanUp_ends (plain : Plain around) {lease : Lease} {outcome : Except PublishError Secret}
    (plays : (cleanUp id lease outcome).Plays around store calls rest later)
    (isOver : rest.IsOver) : rest = .done outcome ∧ later = store ∧
      ∀ exchange ∈ calls, exchange.1.OnLocks := by
  cases plays with
  | stop => cases isOver
  | call left plays =>
    obtain rfl := plain.eq_of_answered left trivial
    cases plays with
    | stop => cases isOver
    | call given plays =>
      obtain rfl := plain.eq_of_answered given trivial
      cases plays with
      | stop => cases isOver
      | call swept plays =>
        obtain rfl := plain.eq_of_answered swept trivial
        cases plays
        refine ⟨rfl, rfl, ?_⟩
        simp [ServiceCall.OnLocks]

/-- Work inside a lock that left the calendar does not give the lock up. Other work does. -/
theorem validToken_ends (plain : Plain around)
    (plays : (policy.validToken copy).run.Plays around store calls rest later)
    (isOver : rest.IsOver) : ∃ outcome, rest = ended outcome ∧
      Ends policy around copy store calls outcome later := by
  rw [validToken_run] at plays
  cases plays with
  | stop => cases isOver
  | @call _ _ time calls _ _ _ _ answered plays =>
    obtain rfl := plain.eq_of_answered answered trivial
    dsimp only at plays
    split at plays
    · rename_i lost
      cases plays
      exact ⟨none, rfl, .lost lost⟩
    · rename_i needed
      rw [insideLock_run] at plays
      cases plays with
      | stop => cases isOver
      | @call _ _ lease calls _ _ _ _ leased plays =>
        obtain rfl := plain.eq_of_answered leased trivial
        cases plays with
        | stop => cases isOver
        | @call _ _ _ calls _ _ _ _ entered plays =>
          obtain rfl := plain.eq_of_answered entered trivial
          rcases plays.unbind with ⟨work, works, going, rfl⟩ |
            ⟨value, inner, cleaning, mid, rfl, works, cleans⟩
          · cases work with
            | done value => exact absurd rfl (going value)
            | call c next => cases isOver
            | overflow =>
              obtain ⟨outcome, is, ending⟩ := validTokenInside_ends plain works trivial
              refine ⟨none, rfl, ?_⟩
              cases outcome with
              | some outcome => cases is
              | none =>
                rw [← List.append_nil calls]
                exact .inside needed ending (by simp)
          · obtain ⟨rfl, rfl, onLocks⟩ := cleanUp_ends plain cleans isOver
            obtain ⟨outcome, is, ending⟩ := validTokenInside_ends plain works trivial
            cases outcome with
            | none => cases is
            | some outcome =>
              cases is
              exact ⟨some _, rfl, .inside needed ending onLocks⟩
    · rename_i kept
      cases plays
      exact ⟨some _, rfl, .kept kept⟩

theorem validToken_returns (plain : Plain around) {value : Except PublishError Secret}
    (plays : (policy.validToken copy).run.Plays around store calls (.done value) later) :
    Ends policy around copy store calls (some value) later := by
  obtain ⟨outcome, is, ends⟩ := validToken_ends plain plays trivial
  cases outcome with
  | none => cases is
  | some value =>
    cases is
    exact ends

end

section

variable {id : AccountId} {lease : Lease} {inner cleaning : List Services.Exchange}

/-- The calls around the work inside a lock are on locks, and nothing else can be seen of them. -/
theorem filterMap_around {β : Type} {see : Services.Exchange → Option β}
    (blind : ∀ exchange : Services.Exchange, exchange.1.OnLocks → see exchange = none)
    (onLocks : ∀ exchange ∈ cleaning, exchange.1.OnLocks) :
    (⟨.lease id, lease⟩ :: ⟨.enter lease, ()⟩ :: (inner ++ cleaning)).filterMap see =
      inner.filterMap see := by
  have clean : cleaning.filterMap see = [] :=
    List.filterMap_eq_nil_iff.2 fun exchange member => blind exchange (onLocks exchange member)
  have leased := blind ⟨.lease id, lease⟩ trivial
  have entered := blind ⟨.enter lease, ()⟩ trivial
  rw [List.filterMap_cons_none leased, List.filterMap_cons_none entered, List.filterMap_append,
    clean, List.append_nil]

theorem readings_around (onLocks : ∀ exchange ∈ cleaning, exchange.1.OnLocks) :
    (⟨.lease id, lease⟩ :: ⟨.enter lease, ()⟩ :: (inner ++ cleaning)).filterMap
      Services.reading? = inner.filterMap Services.reading? := by
  refine filterMap_around ?_ onLocks
  rintro ⟨c, answer⟩ onLocks
  cases c with
  | records c => cases onLocks
  | _ => rfl

theorem grants_around (onLocks : ∀ exchange ∈ cleaning, exchange.1.OnLocks) :
    (⟨.lease id, lease⟩ :: ⟨.enter lease, ()⟩ :: (inner ++ cleaning)).filterMap
      Services.granted? = inner.filterMap Services.granted? := by
  refine filterMap_around ?_ onLocks
  rintro ⟨c, answer⟩ onLocks
  cases c with
  | renew => cases onLocks
  | _ => rfl

theorem renewals_around (onLocks : ∀ exchange ∈ cleaning, exchange.1.OnLocks) :
    (⟨.lease id, lease⟩ :: ⟨.enter lease, ()⟩ :: (inner ++ cleaning) :
      List Services.Exchange).filter (·.1.isRenewal) = inner.filter (·.1.isRenewal) := by
  simp only [← List.filterMap_eq_filter]
  refine filterMap_around ?_ onLocks
  rintro ⟨c, answer⟩ onLocks
  cases c with
  | renew => cases onLocks
  | _ => rfl

end

end RenewalPolicy

end Syndication
