import Mathlib.Logic.Hydra
import Syndication.Proofs.TokenDesk

namespace Syndication

namespace Program

variable {I : Interface} {α : Type}

/-- What a program may become by the answer to one call. -/
inductive Becomes : Program I α → Program I α → Prop
  | answer {c : I.Call} {next : I.Answer c → Program I α} (answer : I.Answer c) :
      Becomes (next answer) (.call c next)

theorem becomes_wellFounded : WellFounded (Becomes (I := I) (α := α)) := by
  refine ⟨fun p => ?_⟩
  induction p with
  | done value => exact .intro _ nofun
  | call c next ih =>
    refine .intro _ fun q became => ?_
    cases became with
    | answer a => exact ih a
  | overflow => exact .intro _ nofun

end Program

/-- How much a caller has to give up. -/
def Hold.rank : Hold → Nat
  | nothing => 0
  | lease _ => 1
  | entered _ => 2

namespace Caller

/-- What a caller may still do besides having its calls answered. -/
def rank (caller : Caller) : Nat := caller.hold.rank + if caller.asking then 0 else 1

/-- Fewer calls are left to a caller, or the same ones and less to do besides. -/
def Closer (a b : Caller) : Prop :=
  Prod.Lex Program.Becomes (· < ·) (a.rest, a.rank) (b.rest, b.rank)

theorem closer_wellFounded : WellFounded Closer :=
  InvImage.wf (fun caller : Caller => (caller.rest, caller.rank))
    (Program.becomes_wellFounded.prod_lex Nat.lt_wfRel.wf)

end Caller

namespace Desk

variable {σ : Type} {around : Surroundings Services σ}

/-- One caller comes closer to its end, and all others stay where they are. -/
theorem Step.closer {a b : Desk σ} {i : Nat} {event : Event} (step : Step around a i event b) :
    ∃ caller moved, a.callers[i]? = some caller ∧ b.callers = a.callers.set i moved ∧
      moved.Closer caller := by
  cases step with
  | ask here => exact ⟨_, _, here, rfl, .right _ (by simp [Caller.rank])⟩
  | answer here => exact ⟨_, _, here, rfl, .left _ _ (.answer _)⟩
  | leave here | giveBack here =>
    exact ⟨_, _, here, rfl, .right _ (by simp [Caller.rank, Hold.rank])⟩

/-- Steps come to an end, in whatever order the callers make them. -/
theorem step_wellFounded (around : Surroundings Services σ) :
    WellFounded fun b a : Desk σ => ∃ i event, Step around a i event b := by
  refine Subrelation.wf ?_
    (InvImage.wf (fun desk : Desk σ => (desk.callers : Multiset Caller))
      Caller.closer_wellFounded.cutExpand)
  rintro b a ⟨i, event, step⟩
  obtain ⟨caller, moved, here, same, closer⟩ := step.closer
  obtain ⟨bound, rfl⟩ := List.getElem?_eq_some_iff.1 here
  have before : (a.callers : Multiset Caller) = {a.callers[i]} + ↑(a.callers.eraseIdx i) :=
    Multiset.coe_eq_coe.2 (List.getElem_cons_eraseIdx_perm bound).symm
  have after : (b.callers : Multiset Caller) = {moved} + ↑(a.callers.eraseIdx i) := by
    rw [same]
    exact Multiset.coe_eq_coe.2 (List.set_perm_cons_eraseIdx bound moved)
  change Relation.CutExpand Caller.Closer (b.callers : Multiset Caller) a.callers
  rw [before, after]
  exact Relation.cutExpand_single_add closer _

/-- No caller can make a step. -/
def Quiet (around : Surroundings Services σ) (desk : Desk σ) : Prop :=
  ∀ i event later, ¬ Step around desk i event later

/-- Every call has an answer, and what the locks answer is no concern of the other services. -/
structure Replying (around : Surroundings Services σ) : Prop where
  onLocks : ∀ s {c answer}, ServiceCall.OnLocks c → ∃ t, around s c answer t
  elsewhere : ∀ s c, ¬ ServiceCall.OnLocks c → ∃ answer t, around s c answer t

variable {policy : RenewalPolicy} {fit : AccountId → Account → Prop} {desk : Desk σ}

/-- Every call is answered, except that a lock has to be free to be entered. -/
theorem exists_answer (replying : Replying around) (desk : Desk σ) {c : ServiceCall}
    (free : ∀ lease, c = .enter lease → desk.locks.isFree lease = true) :
    ∃ answer locks others, desk.locks.Answers c answer locks ∧
      around desk.others c answer others := by
  by_cases onLocks : c.OnLocks
  · obtain ⟨answer, locks, answered⟩ : ∃ answer locks, desk.locks.Answers c answer locks := by
      cases c with
      | lease id => exact ⟨_, _, rfl⟩
      | enter lease => exact ⟨(), _, free lease rfl, rfl⟩
      | leave | giveBack | sweep => exact ⟨(), _, rfl⟩
      | _ => cases onLocks
    obtain ⟨others, elsewhere⟩ := replying.onLocks desk.others onLocks
    exact ⟨answer, locks, others, answered, elsewhere⟩
  · obtain ⟨answer, others, elsewhere⟩ := replying.elsewhere desk.others c onLocks
    exact ⟨answer, _, others, (LockTable.answers_iff onLocks).2 rfl, elsewhere⟩

/-- A caller that makes a call can go on, unless it waits in front of a lock. -/
theorem Sound.goesOn (sound : desk.Sound policy fit) (replying : Replying around) {i : Nat}
    {account : Account} {c : ServiceCall} {hold : Hold} {asking : Bool}
    {next : c.Answer → Program Services (Except PublishError Secret)}
    (here : desk.callers[i]? = some ⟨account, .call c next, hold, asking⟩)
    (free : ∀ lease, c = .enter lease → desk.locks.isFree lease = true) :
    ∃ event later, Step around desk i event later := by
  by_cases ready : asking = c.isRenewal
  · subst ready
    obtain ⟨answer, locks, others, answered, elsewhere⟩ := exists_answer replying desk free
    exact ⟨_, _, .answer here answered elsewhere⟩
  · have isRenewal : ∃ platform token limit, c = .renew platform token limit := by
      cases asking with
      | true =>
        obtain ⟨platform, token, limit, _, is⟩ := sound.asking _ (List.mem_of_getElem? here) rfl
        cases is
        exact ⟨platform, token, limit, rfl⟩
      | false =>
        cases c with
        | renew platform token limit => exact ⟨platform, token, limit, rfl⟩
        | _ => exact absurd rfl ready
    obtain ⟨platform, token, limit, rfl⟩ := isRenewal
    obtain rfl : asking = false := by simpa [ServiceCall.isRenewal] using ready
    exact ⟨_, _, .ask here⟩

/-- A caller that is inside of a lock can go on. -/
theorem Sound.goesOn_inside (sound : desk.Sound policy fit) (replying : Replying around) {i : Nat}
    {account : Account} {rest : Program Services (Except PublishError Secret)} {lease : Lease}
    {asking : Bool} (here : desk.callers[i]? = some ⟨account, rest, .entered lease, asking⟩) :
    ∃ event later, Step around desk i event later := by
  have member := List.mem_of_getElem? here
  obtain ⟨p, working, is⟩ := (sound.stands _ member).of_entered
  dsimp only at is
  subst is
  cases p with
  | done outcome => exact sound.goesOn replying here nofun
  | call c work =>
    refine sound.goesOn replying here ?_
    rintro lease rfl
    exact absurd trivial working.elsewhere
  | overflow =>
    cases asking with
    | false => exact ⟨_, _, .leave here⟩
    | true =>
      obtain ⟨_, _, _, _, is⟩ := sound.asking _ member rfl
      cases is

/-- Where no caller can make a step, all of them are through. -/
theorem Sound.over_of_quiet (sound : desk.Sound policy fit) (replying : Replying around)
    (quiet : desk.Quiet around) {caller : Caller} (member : caller ∈ desk.callers) :
    caller.rest.IsOver := by
  have still {i : Nat} : ¬ ∃ event later, Step around desk i event later :=
    fun ⟨event, later, step⟩ => quiet i event later step
  obtain ⟨i, here⟩ := List.getElem?_of_mem member
  obtain ⟨account, rest, hold, asking⟩ := caller
  cases rest with
  | done | overflow => trivial
  | call c next =>
    refine absurd (sound.goesOn replying here fun lease _ => ?_) still
    -- who is inside of the lock could go on, so that the lock has to be free
    by_contra taken
    have entered : lease.lock ∈ desk.locks.entered := by simpa [LockTable.isFree] using taken
    obtain ⟨other, there, inside⟩ := List.mem_filterMap.1 (sound.guards.entered.mem_iff.1 entered)
    obtain ⟨j, there⟩ := List.getElem?_of_mem there
    obtain ⟨account, rest, hold, asking⟩ := other
    cases hold with
    | entered held => exact still (sound.goesOn_inside replying there)
    | nothing | lease => cases inside

/-- In whatever order the callers go on, the desk comes to be as `wanted`. -/
inductive Surely (around : Surroundings Services σ) (wanted : Desk σ → Prop) : Desk σ → Prop
  | now {a : Desk σ} : wanted a → Surely around wanted a
  | later {a : Desk σ} : ¬ a.Quiet around →
      (∀ {i event b}, Step around a i event b → Surely around wanted b) → Surely around wanted a

/-- What holds on and is as wanted when no caller can make a step surely comes to be as wanted. -/
theorem Surely.of_quiet {wanted meanwhile : Desk σ → Prop} (begins : meanwhile desk)
    (goesOn : ∀ {a b i event}, meanwhile a → Step around a i event b → meanwhile b)
    (ends : ∀ {a}, meanwhile a → a.Quiet around → wanted a) : Surely around wanted desk := by
  induction (step_wellFounded around).apply desk with
  | intro a _ ih =>
    by_cases quiet : a.Quiet around
    · exact .now (ends begins quiet)
    · exact .later quiet fun step => ih _ ⟨_, _, step⟩ (goesOn begins step)

end Desk

end Syndication
