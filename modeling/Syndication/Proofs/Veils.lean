import Syndication.Proofs.Conduct

namespace Syndication

/-- What somebody sees of calls, and of calls with their answers. -/
structure Veil (I : Interface) where
  call : I.Call → I.Call
  exchange : I.Exchange → I.Exchange

namespace Program

variable {I : Interface} {α β γ δ σ τ : Type} {veil : Veil I}

/-- `p.Couples veil ends q`: as long as their answers look alike, the programs make calls that look
alike, and they come to values as `ends` says. -/
inductive Couples (veil : Veil I) (ends : α → β → Prop) : Program I α → Program I β → Prop
  | done {a : α} {b : β} : ends a b → Couples veil ends (.done a) (.done b)
  | overflow : Couples veil ends .overflow .overflow
  | call {c d : I.Call} {next : I.Answer c → Program I α} {other : I.Answer d → Program I β} :
      veil.call c = veil.call d →
      (∀ a b, veil.exchange ⟨c, a⟩ = veil.exchange ⟨d, b⟩ →
        Couples veil ends (next a) (other b)) →
      Couples veil ends (.call c next) (.call d other)

theorem Couples.mono {ends weaker : α → β → Prop} {p : Program I α} {q : Program I β}
    (couples : p.Couples veil ends q) (weaken : ∀ a b, ends a b → weaker a b) :
    p.Couples veil weaker q := by
  induction couples with
  | done reached => exact .done (weaken _ _ reached)
  | overflow => exact .overflow
  | call seen _ ih => exact .call seen ih

theorem Couples.bind {mid : α → β → Prop} {ends : γ → δ → Prop} {p : Program I α}
    {q : Program I β} {f : α → Program I γ} {g : β → Program I δ} (couples : p.Couples veil mid q)
    (next : ∀ a b, mid a b → (f a).Couples veil ends (g b)) :
    (p.bind f).Couples veil ends (q.bind g) := by
  induction couples with
  | done reached => exact next _ _ reached
  | overflow => exact .overflow
  | call seen _ ih => exact .call seen fun a b same => ih a b same

theorem Couples.ofCalendar {ends : α → β → Prop} {value : Option α} {other : Option β}
    (reached : Option.Rel ends value other) :
    (ofCalendar value : Program I α).Couples veil ends (ofCalendar other) := by
  cases reached with
  | some reached => exact .done reached
  | none => exact .overflow

/-- A program whose answers are all seen goes the same way twice. -/
theorem Couples.refl {allowed : I.Call → Prop} {p : Program I α}
    (seen : ∀ c, allowed c → ∀ a b, veil.exchange ⟨c, a⟩ = veil.exchange ⟨c, b⟩ → a = b)
    (only : p.Yields allowed fun _ => True) : p.Couples veil Eq p := by
  induction p with
  | done value => exact .done rfl
  | overflow => exact .overflow
  | call c next ih =>
    obtain ⟨here, goesOn⟩ := only () trivial trivial
    refine .call rfl fun a b same => ?_
    obtain rfl := seen c here a b same
    exact ih a (goesOn a () trivial)

/-- Coupled programs come to the same end in surroundings that answer calls alike. -/
theorem Couples.run {ends : α → β → Prop} {alike : σ → τ → Prop}
    {perform : (c : I.Call) → σ → I.Answer c × σ} {other : (c : I.Call) → τ → I.Answer c × τ}
    (answers : ∀ {s t c d}, alike s t → veil.call c = veil.call d →
      veil.exchange ⟨c, (perform c s).1⟩ = veil.exchange ⟨d, (other d t).1⟩ ∧
        alike (perform c s).2 (other d t).2)
    {p : Program I α} {q : Program I β} (couples : p.Couples veil ends q) {s : σ} {t : τ}
    (start : alike s t) : Option.Rel ends (p.run perform s).1 (q.run other t).1 ∧
      alike (p.run perform s).2 (q.run other t).2 := by
  induction couples generalizing s t with
  | done reached => exact ⟨.some reached, start⟩
  | overflow => exact ⟨.none, start⟩
  | call seen _ ih =>
    obtain ⟨same, still⟩ := answers start seen
    exact ih _ _ same still

end Program

namespace Action

open Program

variable {I : Interface} {α β γ δ : Type} {veil : Veil I}

/-- Both outcomes are values as `ends` says, or both are the same error. -/
def Ends {ε : Type} (ends : α → β → Prop) : Except ε α → Except ε β → Prop
  | .ok a, .ok b => ends a b
  | .error error, .error other => error = other
  | _, _ => False

theorem Ends.refl {ε : Type} (outcome : Except ε α) : Ends Eq outcome outcome := by
  cases outcome <;> rfl

theorem Ends.eq {ε : Type} {outcome other : Except ε α} (reached : Ends Eq outcome other) :
    outcome = other := by
  match outcome, other with
  | .ok a, .ok b => exact congrArg Except.ok reached
  | .error error, .error other => exact congrArg Except.error reached
  | .ok _, .error _ | .error _, .ok _ => cases reached

/-- Outcomes are alike when they are the same to those who see values through `f`. -/
theorem ends_iff_map {ε : Type} {f : α → β} {outcome other : Except ε α} :
    Ends (fun a b => f a = f b) outcome other ↔ outcome.map f = other.map f := by
  cases outcome <;> cases other <;> simp [Ends, Except.map]

abbrev Couples (veil : Veil I) (ends : α → β → Prop) (x : Action I α) (y : Action I β) : Prop :=
  x.run.Couples veil (Ends ends) y.run

theorem Couples.bind {mid : α → β → Prop} {ends : γ → δ → Prop} {x : Action I α}
    {y : Action I β} {f : α → Action I γ} {g : β → Action I δ} (first : x.Couples veil mid y)
    (second : ∀ a b, mid a b → (f a).Couples veil ends (g b)) :
    (x >>= f).Couples veil ends (y >>= g) := by
  rw [Action.Couples, run_bind, run_bind]
  refine Program.Couples.bind first fun outcome other reached => ?_
  match outcome, other with
  | .ok a, .ok b => exact second a b reached
  | .error error, .error same => exact .done reached
  | .ok _, .error _ | .error _, .ok _ => cases reached

theorem Couples.always {ends : α → β → Prop} {p : Program I α} {q : Program I β}
    (couples : p.Couples veil ends q) : (always p).Couples veil ends (always q) :=
  Program.Couples.bind couples fun _ _ reached => .done reached

theorem Couples.persisted {ends : α → β → Prop} {p : Program I (Except ServiceFault α)}
    {q : Program I (Except ServiceFault β)} (couples : p.Couples veil (Ends ends) q) :
    (persisted p).Couples veil ends (persisted q) := by
  refine Program.Couples.bind couples fun answer other reached => .done ?_
  match answer, other with
  | .ok a, .ok b => exact reached
  | .error fault, .error same => exact congrArg PublishError.persistence reached
  | .ok _, .error _ | .error _, .ok _ => cases reached

theorem Couples.throw {ends : α → β → Prop} {error : PublishError} :
    (throw error : Action I α).Couples veil ends (throw error) := .done rfl

theorem Couples.pure {ends : α → β → Prop} {a : α} {b : β} (reached : ends a b) :
    (pure a : Action I α).Couples veil ends (pure b) := .done reached

theorem Couples.ofExcept {outcome : Except PublishError α} :
    (ofExcept outcome : Action I α).Couples veil Eq (ofExcept outcome) := .done (.refl outcome)

/-- An action whose answers are all seen goes the same way twice. -/
theorem Couples.refl {allowed : I.Call → Prop} {x : Action I α}
    (seen : ∀ c, allowed c → ∀ a b, veil.exchange ⟨c, a⟩ = veil.exchange ⟨c, b⟩ → a = b)
    (only : x.CallsOnly allowed) : x.Couples veil Eq x := by
  have couples : x.run.Couples veil Eq x.run :=
    .refl seen (only.meets.weaken fun _ _ _ => trivial)
  exact couples.mono fun outcome _ same => same ▸ .refl outcome

end Action

end Syndication
