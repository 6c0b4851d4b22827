import Syndication.Services

namespace Syndication

abbrev Interface.Exchange (I : Interface) : Type := (c : I.Call) × I.Answer c

/-- How a state answers calls, and what it becomes by them. -/
abbrev Surroundings (I : Interface) (σ : Type) : Type :=
  σ → (c : I.Call) → I.Answer c → σ → Prop

/-- The services other than the records have no part in the state, and may answer as they like. -/
def Surroundings.withServices {σ : Type} (around : Surroundings Records σ) :
    Surroundings Services σ
  | s, .records c, a, t => around s c a t
  | s, _, _, t => t = s

/-- Two kinds of surroundings side by side, each with a state of its own. A call is answered as both
allow. -/
def Surroundings.beside {I : Interface} {σ τ : Type} (around : Surroundings I σ)
    (other : Surroundings I τ) : Surroundings I (σ × τ) :=
  fun s c a t => around s.1 c a t.1 ∧ other s.2 c a t.2

/-- What programs that share a state may rely on, and what they may call. -/
structure Discipline (I : Interface) (σ : Type) where
  around : Surroundings I σ
  sound : σ → Prop
  /-- How others may move the state between two calls of a program. -/
  rely : σ → σ → Prop
  permits : σ → I.Call → Prop
  refl : ∀ s, rely s s
  trans : ∀ {s t u}, rely s t → rely t u → rely s u
  keeps : ∀ {s t : σ} {c : I.Call} {a : I.Answer c},
    sound s → permits s c → around s c a t → sound t
  /-- A permitted call moves the state as the others rely on it. -/
  moves : ∀ {s t : σ} {c : I.Call} {a : I.Answer c},
    sound s → permits s c → around s c a t → rely s t

/-- The discipline of surroundings that may answer anything. Only calls that are `allowed` may be
made. -/
def Discipline.free {I : Interface} (allowed : I.Call → Prop) : Discipline I Unit where
  around _ _ _ _ := True
  sound _ := True
  rely _ _ := True
  permits _ c := allowed c
  refl _ := trivial
  trans _ _ := trivial
  keeps _ _ _ := trivial
  moves _ _ _ := trivial

def Discipline.withServices {σ : Type} (D : Discipline Records σ) : Discipline Services σ where
  around := D.around.withServices
  sound := D.sound
  rely := D.rely
  permits
    | s, .records c => D.permits s c
    | _, _ => True
  refl := D.refl
  trans := D.trans
  keeps {s t c a} sound permitted moved := by
    cases c with
    | records c => exact D.keeps sound permitted moved
    | _ => cases moved; exact sound
  moves {s t c a} sound permitted moved := by
    cases c with
    | records c => exact D.moves sound permitted moved
    | _ => cases moved; exact D.refl _

/-- Two disciplines side by side, each with a state of its own. -/
def Discipline.beside {I : Interface} {σ τ : Type} (D : Discipline I σ) (E : Discipline I τ) :
    Discipline I (σ × τ) where
  around := D.around.beside E.around
  sound s := D.sound s.1 ∧ E.sound s.2
  rely s t := D.rely s.1 t.1 ∧ E.rely s.2 t.2
  permits s c := D.permits s.1 c ∧ E.permits s.2 c
  refl s := ⟨D.refl s.1, E.refl s.2⟩
  trans first second := ⟨D.trans first.1 second.1, E.trans first.2 second.2⟩
  keeps sound permitted answered :=
    ⟨D.keeps sound.1 permitted.1 answered.1, E.keeps sound.2 permitted.2 answered.2⟩
  moves sound permitted answered :=
    ⟨D.moves sound.1 permitted.1 answered.1, E.moves sound.2 permitted.2 answered.2⟩

namespace Program

variable {I : Interface} {α β σ : Type}

/-- `p.Follows log q`: when its calls were answered as the log says, `p` has become `q`. -/
inductive Follows : Program I α → List I.Exchange → Program I α → Prop
  | stop (p : Program I α) : Follows p [] p
  | call {c : I.Call} {next : I.Answer c → Program I α} {a : I.Answer c} {log : List I.Exchange}
      {q : Program I α} : Follows (next a) log q → Follows (.call c next) (⟨c, a⟩ :: log) q

/-- `p.Plays around s log q t`: alone in the surroundings, `p` has become `q` after the log, and
the state `s` has become `t`. -/
inductive Plays (around : Surroundings I σ) :
    Program I α → σ → List I.Exchange → Program I α → σ → Prop
  | stop (p : Program I α) (s : σ) : Plays around p s [] p s
  | call {c : I.Call} {next : I.Answer c → Program I α} {a : I.Answer c} {log : List I.Exchange}
      {q : Program I α} {s t u : σ} : around s c a t → Plays around (next a) t log q u →
      Plays around (.call c next) s (⟨c, a⟩ :: log) q u

def IsOver : Program I α → Prop
  | .call .. => False
  | _ => True

/-- The program makes permitted calls only, however the state moves between them, and whatever it
is done with is as `post` says. -/
def Meets (D : Discipline I σ) (post : α → σ → Prop) : Program I α → σ → Prop
  | .done value, s => post value s
  | .call c next, s => ∀ t, D.rely s t → D.sound t →
      D.permits t c ∧ ∀ a u, D.around t c a u → (next a).Meets D post u
  | .overflow, _ => True

/-- Whatever its calls are answered, the program makes allowed calls only, and its value is as
`post` says. -/
abbrev Yields (allowed : I.Call → Prop) (post : α → Prop) (p : Program I α) : Prop :=
  p.Meets (.free allowed) (fun value _ => post value) ()

theorem Yields.ask {allowed : I.Call → Prop} {c : I.Call} (here : allowed c) :
    (Program.ask c).Yields allowed fun _ => True :=
  fun _ _ _ => ⟨here, fun _ _ _ => trivial⟩

theorem Yields.ofCalendar {allowed : I.Call → Prop} {value : Option α} :
    (Program.ofCalendar value : Program I α).Yields allowed fun _ => True := by
  cases value <;> trivial

theorem Follows.snoc {p : Program I α} {log : List I.Exchange} {c : I.Call}
    {next : I.Answer c → Program I α} (follows : p.Follows log (.call c next)) (a : I.Answer c) :
    p.Follows (log ++ [⟨c, a⟩]) (next a) := by
  generalize same : Program.call c next = q at follows
  induction follows with
  | stop p =>
    subst same
    exact .call (.stop _)
  | call _ ih => exact .call (ih same)

theorem Follows.eq_of_nil {p q : Program I α} (follows : p.Follows [] q) : q = p := by
  cases follows
  rfl

/-- A log of two programs in a row is one of the first alone, or one of the first to its end and
then one of the second. -/
theorem Follows.of_bind {p : Program I α} {f : α → Program I β} {log : List I.Exchange}
    {q : Program I β} (follows : (p.bind f).Follows log q) :
    (∃ p', p.Follows log p' ∧ q = p'.bind f) ∨
      ∃ value first second, log = first ++ second ∧ p.Follows first (.done value) ∧
        (f value).Follows second q := by
  induction p generalizing log with
  | done value => exact .inr ⟨value, [], log, rfl, .stop _, follows⟩
  | overflow =>
    cases follows with
    | stop => exact .inl ⟨.overflow, .stop _, rfl⟩
  | call c next ih =>
    cases follows with
    | stop => exact .inl ⟨.call c next, .stop _, rfl⟩
    | @call _ _ a log _ rest =>
      rcases ih a rest with ⟨p', begun, same⟩ | ⟨value, first, second, parts, begun, ended⟩
      · exact .inl ⟨p', .call begun, same⟩
      · exact .inr ⟨value, ⟨c, a⟩ :: first, second, by rw [parts]; rfl, .call begun, ended⟩

theorem Plays.follows {around : Surroundings I σ} {p q : Program I α} {log : List I.Exchange}
    {s t : σ} (plays : p.Plays around s log q t) : p.Follows log q := by
  induction plays with
  | stop => exact .stop _
  | call _ _ ih => exact .call ih

theorem Plays.mono {around more : Surroundings I σ} {p q : Program I α} {log : List I.Exchange}
    {s t : σ} (plays : p.Plays around s log q t)
    (subset : ∀ {s t c a}, around s c a t → more s c a t) : p.Plays more s log q t := by
  induction plays with
  | stop => exact .stop _ _
  | call answered _ ih => exact .call (subset answered) ih

section

variable {τ : Type} {around : Surroundings I σ} {other : Surroundings I τ} {p q : Program I α}
  {log : List I.Exchange} {s t : σ × τ}

theorem Plays.first (plays : p.Plays (around.beside other) s log q t) :
    p.Plays around s.1 log q t.1 := by
  induction plays with
  | stop => exact .stop _ _
  | call answered _ ih => exact .call answered.1 ih

theorem Plays.second (plays : p.Plays (around.beside other) s log q t) :
    p.Plays other s.2 log q t.2 := by
  induction plays with
  | stop => exact .stop _ _
  | call answered _ ih => exact .call answered.2 ih

end

theorem Plays.ask {around : Surroundings I σ} {c : I.Call} {a : I.Answer c} {s t : σ}
    (answered : around s c a t) : (ask c).Plays around s [⟨c, a⟩] (.done a) t :=
  .call answered (.stop _ _)

theorem Plays.trans {around : Surroundings I σ} {p q r : Program I α}
    {first second : List I.Exchange} {s t u : σ} (begun : p.Plays around s first q t)
    (goesOn : q.Plays around t second r u) : p.Plays around s (first ++ second) r u := by
  induction begun with
  | stop => exact goesOn
  | call answered _ ih => exact .call answered (ih goesOn)

theorem Plays.bind_left {around : Surroundings I σ} {p q : Program I α} {log : List I.Exchange}
    {s t : σ} (plays : p.Plays around s log q t) (f : α → Program I β) :
    (p.bind f).Plays around s log (q.bind f) t := by
  induction plays with
  | stop => exact .stop _ _
  | call answered _ ih => exact .call answered ih

/-- When the calls of two programs in a row begin with those that bring the first one to its end,
the others are those of the second one. -/
theorem Plays.split_bind {around : Surroundings I σ} {p : Program I α} {f : α → Program I β}
    {value : α} {q : Program I β} {first second : List I.Exchange} {s t : σ}
    (plays : (p.bind f).Plays around s (first ++ second) q t)
    (follows : p.Follows first (.done value)) :
    ∃ u, p.Plays around s first (.done value) u ∧ (f value).Plays around u second q t := by
  generalize same : Program.done value = ended at follows
  induction follows generalizing s with
  | stop =>
    subst same
    exact ⟨s, .stop _ _, plays⟩
  | call _ ih =>
    cases plays with
    | call answered rest =>
      obtain ⟨u, begun, ended⟩ := ih rest same
      exact ⟨u, .call answered begun, ended⟩

/-- Two programs in a row: the first one has come to no value, or it came to one and the second
program went on from there. -/
theorem Plays.unbind {around : Surroundings I σ} {p : Program I α} {f : α → Program I β}
    {log : List I.Exchange} {q : Program I β} {s t : σ}
    (plays : (p.bind f).Plays around s log q t) :
    (∃ p', p.Plays around s log p' t ∧ (∀ value, p' ≠ .done value) ∧ q = p'.bind f) ∨
      ∃ value first second u, log = first ++ second ∧ p.Plays around s first (.done value) u ∧
        (f value).Plays around u second q t := by
  induction p generalizing s log with
  | done value => exact .inr ⟨value, [], log, s, rfl, .stop _ _, plays⟩
  | overflow =>
    cases plays with
    | stop => exact .inl ⟨.overflow, .stop _ _, nofun, rfl⟩
  | call c next ih =>
    cases plays with
    | stop => exact .inl ⟨.call c next, .stop _ _, nofun, rfl⟩
    | @call _ _ a log _ _ mid _ answered rest =>
      rcases ih a rest with ⟨p', begun, open_, same⟩ |
        ⟨value, first, second, u, parts, begun, ended⟩
      · exact .inl ⟨p', .call answered begun, open_, same⟩
      · refine .inr ⟨value, ⟨c, a⟩ :: first, second, u, ?_, .call answered begun, ended⟩
        rw [parts, List.cons_append]

/-- Two programs in a row that came to an end: the first one did and then the second one, or the
first one overflowed. -/
theorem Plays.of_bind {around : Surroundings I σ} {p : Program I α} {f : α → Program I β}
    {log : List I.Exchange} {q : Program I β} {s t : σ} (plays : (p.bind f).Plays around s log q t)
    (isOver : q.IsOver) : p.Plays around s log .overflow t ∨ ∃ value first second u,
      log = first ++ second ∧ p.Plays around s first (.done value) u ∧
        (f value).Plays around u second q t := by
  rcases plays.unbind with ⟨p', begun, open_, rfl⟩ | ended
  · cases p' with
    | done value => exact absurd rfl (open_ value)
    | overflow => exact .inl begun
    | call c next => cases isOver
  · exact .inr ended

/-- Two programs in a row that came to a value: the first one did and then the second one. -/
theorem Plays.of_bind_done {around : Surroundings I σ} {p : Program I α} {f : α → Program I β}
    {log : List I.Exchange} {last : β} {s t : σ}
    (plays : (p.bind f).Plays around s log (.done last) t) : ∃ value first second u,
      log = first ++ second ∧ p.Plays around s first (.done value) u ∧
        (f value).Plays around u second (.done last) t := by
  rcases plays.unbind with ⟨p', _, open_, same⟩ | ended
  · cases p' with
    | done value => exact absurd rfl (open_ value)
    | overflow | call => cases same
  · exact ended

/-- In surroundings that always have an answer, every program can be played to its end. -/
theorem exists_plays {around : Surroundings I σ} (total : ∀ s c, ∃ a t, around s c a t)
    (p : Program I α) (s : σ) : ∃ log q t, p.Plays around s log q t ∧ q.IsOver := by
  induction p generalizing s with
  | done value => exact ⟨[], .done value, s, .stop _ _, trivial⟩
  | overflow => exact ⟨[], .overflow, s, .stop _ _, trivial⟩
  | call c next ih =>
    obtain ⟨a, t, answered⟩ := total s c
    obtain ⟨log, q, u, plays, isOver⟩ := ih a t
    exact ⟨⟨c, a⟩ :: log, q, u, .call answered plays, isOver⟩

theorem Plays.bind {around : Surroundings I σ} {p : Program I α} {f : α → Program I β}
    {value : α} {q : Program I β} {first second : List I.Exchange} {s t u : σ}
    (begun : p.Plays around s first (.done value) t) (ended : (f value).Plays around t second q u) :
    (p.bind f).Plays around s (first ++ second) q u := (begun.bind_left f).trans ended

theorem Plays.withServices {around : Surroundings Records σ} {p q : Program Records α}
    {log : List Records.Exchange} {s t : σ} (plays : p.Plays around s log q t) :
    (p.through fun c => .ask (I := Services) (.records c)).Plays around.withServices s
      (log.map fun exchange => ⟨.records exchange.1, exchange.2⟩)
      (q.through fun c => .ask (I := Services) (.records c)) t := by
  induction plays with
  | stop => exact .stop _ _
  | call answered _ ih => exact .call answered ih

theorem Meets.weaken {D : Discipline I σ} {post weaker : α → σ → Prop} {p : Program I α} {s : σ}
    (meets : p.Meets D post s) (weaken : ∀ value t, post value t → weaker value t) :
    p.Meets D weaker s := by
  induction p generalizing s with
  | done value => exact weaken value s meets
  | overflow => trivial
  | call c next ih =>
    intro t moved sound
    obtain ⟨permitted, goesOn⟩ := meets t moved sound
    exact ⟨permitted, fun a u answered => ih a (goesOn a u answered)⟩

theorem Meets.and {D : Discipline I σ} {post other : α → σ → Prop} {p : Program I α} {s : σ}
    (meets : p.Meets D post s) (also : p.Meets D other s) :
    p.Meets D (fun value t => post value t ∧ other value t) s := by
  induction p generalizing s with
  | done value => exact ⟨meets, also⟩
  | overflow => trivial
  | call c next ih =>
    intro t moved sound
    obtain ⟨permitted, goesOn⟩ := meets t moved sound
    obtain ⟨_, goesOnToo⟩ := also t moved sound
    exact ⟨permitted, fun a u answered => ih a (goesOn a u answered) (goesOnToo a u answered)⟩

/-- A program that keeps two contracts, each about a state of its own, keeps both at once. -/
theorem Meets.beside {τ : Type} {D : Discipline I σ} {E : Discipline I τ} {post : α → σ → Prop}
    {other : α → τ → Prop} {p : Program I α} {s : σ} {t : τ} (meets : p.Meets D post s)
    (also : p.Meets E other t) :
    p.Meets (D.beside E) (fun value u => post value u.1 ∧ other value u.2) (s, t) := by
  induction p generalizing s t with
  | done value => exact ⟨meets, also⟩
  | overflow => trivial
  | call c next ih =>
    intro u moved sound
    obtain ⟨permitted, goesOn⟩ := meets u.1 moved.1 sound.1
    obtain ⟨permittedToo, goesOnToo⟩ := also u.2 moved.2 sound.2
    exact ⟨⟨permitted, permittedToo⟩, fun a v answered =>
      ih a (goesOn a v.1 answered.1) (goesOnToo a v.2 answered.2)⟩

theorem Meets.map {D : Discipline I σ} {post : β → σ → Prop} {p : Program I α} {g : α → β} {s : σ}
    (meets : p.Meets D (fun value t => post (g value) t) s) :
    (p.bind fun value => .done (g value)).Meets D post s := by
  induction p generalizing s with
  | done value => exact meets
  | overflow => trivial
  | call c next ih =>
    intro t moved sound
    obtain ⟨permitted, goesOn⟩ := meets t moved sound
    exact ⟨permitted, fun a u answered => ih a (goesOn a u answered)⟩

theorem Meets.withServices {D : Discipline Records σ} {post : α → σ → Prop} {p : Program Records α}
    {s : σ} (meets : p.Meets D post s) :
    (p.through fun c => .ask (I := Services) (.records c)).Meets D.withServices post s := by
  induction p generalizing s with
  | done value => exact meets
  | overflow => trivial
  | call c next ih =>
    intro t moved sound
    obtain ⟨permitted, goesOn⟩ := meets t moved sound
    exact ⟨permitted, fun a u answered => ih a (goesOn a u answered)⟩

/-- Two programs in a row: the second one starts in a state that may have moved on, as others rely
on it, since the first one started. -/
theorem Meets.bind {D : Discipline I σ} {mid : α → σ → Prop} {post : β → σ → Prop}
    {p : Program I α} {f : α → Program I β} {s : σ} (meets : p.Meets D mid s) (sound : D.sound s)
    (next : ∀ value t, D.sound t → D.rely s t → mid value t → (f value).Meets D post t) :
    (p.bind f).Meets D post s := by
  -- the state moves on with every call of the first program, and what `next` relies on is its start
  suffices general : ∀ start, D.rely start s →
      (∀ value t, D.sound t → D.rely start t → mid value t → (f value).Meets D post t) →
        (p.bind f).Meets D post s from general s (D.refl s) next
  clear next
  intro start so next
  induction p generalizing s with
  | done value => exact next value s sound so meets
  | overflow => trivial
  | call c rest ih =>
    intro t moved soundT
    obtain ⟨permitted, goesOn⟩ := meets t moved soundT
    refine ⟨permitted, fun a u answered => ?_⟩
    exact ih a (goesOn a u answered) (D.keeps soundT permitted answered)
      (D.trans (D.trans so moved) (D.moves soundT permitted answered))

theorem Meets.rely {D : Discipline I σ} {post : α → σ → Prop} {p : Program I α} {s t : σ}
    (stable : ∀ value {s t}, D.rely s t → post value s → post value t)
    (meets : p.Meets D post s) (moved : D.rely s t) : p.Meets D post t := by
  cases p with
  | done value => exact stable value moved meets
  | overflow => trivial
  | call c next => exact fun u later sound => meets u (D.trans moved later) sound

theorem Meets.plays {D : Discipline I σ} {post : α → σ → Prop} {p q : Program I α}
    {log : List I.Exchange} {s t : σ} (meets : p.Meets D post s) (sound : D.sound s)
    (plays : p.Plays D.around s log q t) : D.sound t ∧ D.rely s t ∧ q.Meets D post t := by
  induction plays with
  | stop => exact ⟨sound, D.refl _, meets⟩
  | call answered _ ih =>
    obtain ⟨permitted, goesOn⟩ := meets _ (D.refl _) sound
    obtain ⟨soundLast, moved, rest⟩ := ih (goesOn _ _ answered) (D.keeps sound permitted answered)
    exact ⟨soundLast, D.trans (D.moves sound permitted answered) moved, rest⟩

theorem Yields.follows {allowed : I.Call → Prop} {post : α → Prop} {p q : Program I α}
    {log : List I.Exchange} (yields : p.Yields allowed post) (follows : p.Follows log q) :
    (∀ exchange ∈ log, allowed exchange.1) ∧ q.Yields allowed post := by
  induction follows with
  | stop => exact ⟨by simp, yields⟩
  | call _ ih =>
    obtain ⟨first, goesOn⟩ := yields () trivial trivial
    obtain ⟨others, rest⟩ := ih (goesOn _ () trivial)
    exact ⟨List.forall_mem_cons.2 ⟨first, others⟩, rest⟩

/-- A program whose calls are always permitted needs nothing of the state. -/
theorem Yields.meets {allowed : I.Call → Prop} {post : α → Prop} {p : Program I α}
    (yields : p.Yields allowed post) (D : Discipline I σ)
    (permitted : ∀ c, allowed c → ∀ s, D.permits s c) (s : σ) :
    p.Meets D (fun value _ => post value) s := by
  induction p generalizing s with
  | done value => exact yields
  | overflow => trivial
  | call c next ih =>
    intro t _ _
    obtain ⟨allowed, goesOn⟩ := yields () trivial trivial
    exact ⟨permitted c allowed t, fun a u _ => ih a (goesOn a () trivial) u⟩

/-- Whatever its calls are answered, the program makes at most so many of them. -/
def Within : Nat → Program I α → Prop
  | _, .done _ => True
  | _, .overflow => True
  | 0, .call .. => False
  | n + 1, .call _ next => ∀ a, (next a).Within n

theorem Within.done {value : α} {n : Nat} : (Program.done value : Program I α).Within n := by
  cases n <;> trivial

theorem Within.overflow {n : Nat} : (Program.overflow : Program I α).Within n := by
  cases n <;> trivial

theorem Within.ask {c : I.Call} : (Program.ask c).Within 1 := fun _ => .done

theorem Within.mono {p : Program I α} {m n : Nat} (within : p.Within m) (le : m ≤ n) :
    p.Within n := by
  induction p generalizing m n with
  | done value => exact .done
  | overflow => exact .overflow
  | call c next ih =>
    match m, n with
    | 0, _ => cases within
    | m + 1, n + 1 => exact fun a => ih a (within a) (Nat.le_of_succ_le_succ le)

theorem Within.bind {p : Program I α} {f : α → Program I β} {m n : Nat} (first : p.Within m)
    (second : ∀ value, (f value).Within n) : (p.bind f).Within (m + n) := by
  induction p generalizing m with
  | done value => exact (second value).mono (Nat.le_add_left n m)
  | overflow => exact .overflow
  | call c next ih =>
    match m with
    | 0 => cases first
    | m + 1 =>
      rw [Nat.succ_add]
      exact fun a => ih a (first a)

theorem Within.follows {p q : Program I α} {log : List I.Exchange} {n : Nat} (within : p.Within n)
    (follows : p.Follows log q) : log.length ≤ n := by
  induction follows generalizing n with
  | stop => exact Nat.zero_le n
  | call _ ih =>
    match n with
    | 0 => cases within
    | n + 1 => exact Nat.succ_le_succ (ih (within _))

theorem Within.through {p : Program Records α} {n : Nat} (within : p.Within n) :
    (p.through fun c => .ask (I := Services) (.records c)).Within n := by
  induction p generalizing n with
  | done value => exact .done
  | overflow => exact .overflow
  | call c next ih =>
    match n with
    | 0 => cases within
    | n + 1 => exact fun a => ih a (within a)

end Program

namespace Action

variable {I : Interface} {α β σ : Type} {D : Discipline I σ} {s : σ}

/-- The contract of an action for the case that it does not fail. -/
structure Ensures (D : Discipline I σ) (post : α → σ → Prop) (x : Action I α) (s : σ) : Prop where
  meets : x.run.Meets D (fun outcome t => ∀ value, outcome = .ok value → post value t) s

theorem Ensures.weaken {post weaker : α → σ → Prop} {x : Action I α} (ensures : x.Ensures D post s)
    (weaken : ∀ value t, post value t → weaker value t) : x.Ensures D weaker s :=
  ⟨ensures.meets.weaken fun _ t reached value ended => weaken value t (reached value ended)⟩

theorem Ensures.and {post other : α → σ → Prop} {x : Action I α} (ensures : x.Ensures D post s)
    (also : x.Ensures D other s) : x.Ensures D (fun value t => post value t ∧ other value t) s :=
  ⟨(ensures.meets.and also.meets).weaken fun _ _ reached value ended =>
    ⟨reached.1 value ended, reached.2 value ended⟩⟩

theorem Ensures.beside {τ : Type} {E : Discipline I τ} {t : τ} {post : α → σ → Prop}
    {other : α → τ → Prop} {x : Action I α} (ensures : x.Ensures D post s)
    (also : x.Ensures E other t) :
    x.Ensures (D.beside E) (fun value u => post value u.1 ∧ other value u.2) (s, t) :=
  ⟨(ensures.meets.beside also.meets).weaken fun _ _ reached value ended =>
    ⟨reached.1 value ended, reached.2 value ended⟩⟩

theorem run_bind (x : Action I α) (f : α → Action I β) :
    (x >>= f).run = x.run.bind fun
      | .ok value => (f value).run
      | .error error => .done (.error error) := by
  change x.run.bind (ExceptT.bindCont f) = _
  congr 1
  funext outcome
  cases outcome <;> rfl

/-- Two actions in a row: the first one has come to no value, and neither have both, or it came to
one and the second action went on from there. -/
theorem unbind {around : Surroundings I σ} {x : Action I α} {f : α → Action I β}
    {log : List I.Exchange} {q : Program I (Except PublishError β)} {t : σ}
    (plays : (x >>= f).run.Plays around s log q t) :
    (∃ p, x.run.Plays around s log p t ∧ (∀ value, p ≠ .done (.ok value)) ∧
      ∀ value, q ≠ .done (.ok value)) ∨
    ∃ value first second u, log = first ++ second ∧
      x.run.Plays around s first (.done (.ok value)) u ∧
      (f value).run.Plays around u second q t := by
  rw [run_bind] at plays
  rcases plays.unbind with ⟨p, begun, open_, rfl⟩ | ⟨outcome, first, second, u, rfl, begun, goesOn⟩
  · refine .inl ⟨p, begun, fun value => open_ (.ok value), fun value is => ?_⟩
    cases p with
    | done outcome => exact open_ outcome rfl
    | overflow | call => cases is
  · cases outcome with
    | ok value => exact .inr ⟨value, first, second, u, rfl, begun, goesOn⟩
    | error error =>
      cases goesOn
      rw [List.append_nil]
      exact .inl ⟨_, begun, nofun, nofun⟩

theorem Ensures.bind {mid : α → σ → Prop} {post : β → σ → Prop} {x : Action I α}
    {f : α → Action I β} (ensures : x.Ensures D mid s) (sound : D.sound s)
    (next : ∀ value t, D.sound t → D.rely s t → mid value t → (f value).Ensures D post t) :
    (x >>= f).Ensures D post s := by
  constructor
  rw [run_bind]
  refine Program.Meets.bind ensures.meets sound fun outcome t soundT so reached => ?_
  cases outcome with
  | ok value => exact (next value t soundT so (reached value rfl)).meets
  | error error => intro value impossible; cases impossible

theorem Ensures.pure {post : α → σ → Prop} {value : α} (holds : post value s) :
    (Pure.pure value : Action I α).Ensures D post s := by
  constructor
  rintro _ ⟨⟩
  exact holds

theorem Ensures.throw {post : α → σ → Prop} {error : PublishError} :
    (MonadExcept.throw error : Action I α).Ensures D post s := by
  constructor
  intro value impossible
  cases impossible

theorem Ensures.ofExcept {post : α → σ → Prop} {outcome : Except PublishError α}
    (holds : ∀ value, outcome = .ok value → post value s) :
    (Action.ofExcept outcome : Action I α).Ensures D post s := ⟨holds⟩

theorem Ensures.always {post : α → σ → Prop} {p : Program I α} (meets : p.Meets D post s) :
    (Action.always p).Ensures D post s := by
  refine ⟨Program.Meets.map (meets.weaken fun value t reached => ?_)⟩
  rintro _ ⟨⟩
  exact reached

theorem Ensures.mapError {post : α → σ → Prop} {p : Program I (Except ServiceFault α)}
    {wrap : ServiceFault → PublishError}
    (meets : p.Meets D (fun answer t => ∀ value, answer = .ok value → post value t) s) :
    Ensures D post (ExceptT.mk (p.bind fun answer => .done (answer.mapError wrap))) s := by
  refine ⟨Program.Meets.map (meets.weaken fun answer t reached value ended => ?_)⟩
  cases answer with
  | ok found => cases ended; exact reached value rfl
  | error fault => cases ended

theorem Ensures.persisted {post : α → σ → Prop} {p : Program I (Except ServiceFault α)}
    (meets : p.Meets D (fun answer t => ∀ value, answer = .ok value → post value t) s) :
    (Action.persisted p).Ensures D post s := Ensures.mapError meets

theorem Ensures.delivered {post : α → σ → Prop} {p : Program I (Except ServiceFault α)}
    (meets : p.Meets D (fun answer t => ∀ value, answer = .ok value → post value t) s) :
    (Action.delivered p).Ensures D post s := Ensures.mapError meets

theorem Ensures.toServices {D : Discipline Records σ} {post : α → σ → Prop}
    {work : Action Records α} (ensures : work.Ensures D post s) :
    work.toServices.Ensures D.withServices post s :=
  ⟨ensures.meets.withServices⟩

/-- Whatever its calls are answered, the action makes allowed calls only. -/
abbrev CallsOnly (allowed : I.Call → Prop) (x : Action I α) : Prop :=
  x.Ensures (.free allowed) (fun _ _ => True) ()

section CallsOnly

variable {allowed : I.Call → Prop}

theorem CallsOnly.bind {x : Action I α} {f : α → Action I β} (first : x.CallsOnly allowed)
    (second : ∀ value, (f value).CallsOnly allowed) : (x >>= f).CallsOnly allowed :=
  Ensures.bind first trivial fun value _ _ _ _ => second value

theorem CallsOnly.pure {value : α} : (Pure.pure value : Action I α).CallsOnly allowed :=
  Ensures.pure trivial

theorem CallsOnly.throw {error : PublishError} :
    (MonadExcept.throw error : Action I α).CallsOnly allowed := Ensures.throw

theorem CallsOnly.ofExcept {outcome : Except PublishError α} :
    (Action.ofExcept outcome : Action I α).CallsOnly allowed := Ensures.ofExcept fun _ _ => trivial

theorem CallsOnly.always {p : Program I α} (yields : p.Yields allowed fun _ => True) :
    (Action.always p).CallsOnly allowed := Ensures.always yields

theorem CallsOnly.persisted {p : Program I (Except ServiceFault α)}
    (yields : p.Yields allowed fun _ => True) : (Action.persisted p).CallsOnly allowed :=
  Ensures.persisted (yields.weaken fun _ _ _ _ _ => trivial)

theorem CallsOnly.delivered {p : Program I (Except ServiceFault α)}
    (yields : p.Yields allowed fun _ => True) : (Action.delivered p).CallsOnly allowed :=
  Ensures.delivered (yields.weaken fun _ _ _ _ _ => trivial)

/-- Calls that are always permitted need nothing of the state. -/
theorem CallsOnly.ensures {x : Action I α} (only : x.CallsOnly allowed) (D : Discipline I σ)
    (permitted : ∀ c, allowed c → ∀ s, D.permits s c) (s : σ) :
    x.Ensures D (fun _ _ => True) s :=
  ⟨(Program.Yields.meets only.meets D permitted s).weaken fun _ _ _ _ _ => trivial⟩

theorem CallsOnly.mono {x : Action I α} {more : I.Call → Prop} (only : x.CallsOnly allowed)
    (subset : ∀ c, allowed c → more c) : x.CallsOnly more :=
  only.ensures (.free more) (fun c is _ => subset c is) ()

/-- However its calls are answered, they are all of one kind or all of the other. -/
def EitherOnly (one other : I.Call → Prop) (x : Action I α) : Prop :=
  ∀ log rest, x.run.Follows log rest →
    (∀ exchange ∈ log, one exchange.1) ∨ ∀ exchange ∈ log, other exchange.1

theorem EitherOnly.left {one other : I.Call → Prop} {x : Action I α} (only : x.CallsOnly one) :
    x.EitherOnly one other :=
  fun _ _ follows => .inl (Program.Yields.follows only.meets follows).1

theorem EitherOnly.right {one other : I.Call → Prop} {x : Action I α} (only : x.CallsOnly other) :
    x.EitherOnly one other :=
  fun _ _ follows => .inr (Program.Yields.follows only.meets follows).1

theorem EitherOnly.bind {one other : I.Call → Prop} {x : Action I α} {f : α → Action I β}
    (first : x.CallsOnly allowed) (isOne : ∀ c, allowed c → one c)
    (isOther : ∀ c, allowed c → other c) (second : ∀ value, (f value).EitherOnly one other) :
    (x >>= f).EitherOnly one other := by
  intro log rest follows
  rw [run_bind] at follows
  rcases follows.of_bind with ⟨_, begun, _⟩ | ⟨outcome, before, after, rfl, begun, goesOn⟩
  · exact .inl fun exchange member =>
      isOne _ ((Program.Yields.follows first.meets begun).1 exchange member)
  · have allowedBefore := (Program.Yields.follows first.meets begun).1
    cases outcome with
    | error error =>
      cases goesOn
      rw [List.append_nil]
      exact .inl fun exchange member => isOne _ (allowedBefore exchange member)
    | ok value =>
      refine (second value after rest goesOn).imp (fun all => ?_) (fun all => ?_)
      · exact List.forall_mem_append.2 ⟨fun e member => isOne _ (allowedBefore e member), all⟩
      · exact List.forall_mem_append.2 ⟨fun e member => isOther _ (allowedBefore e member), all⟩

theorem EitherOnly.andThen {one other : I.Call → Prop} {x : Action I α} {f : α → Action I β}
    (either : x.EitherOnly one other) (silent : ∀ value, (f value).CallsOnly fun _ => False) :
    (x >>= f).EitherOnly one other := by
  intro log rest follows
  rw [run_bind] at follows
  rcases follows.of_bind with ⟨_, begun, _⟩ | ⟨outcome, before, after, rfl, begun, goesOn⟩
  · exact either log _ begun
  · have nothing : after = [] := by
      cases outcome with
      | error error => cases goesOn; rfl
      | ok value =>
        have none := (Program.Yields.follows (silent value).meets goesOn).1
        exact List.eq_nil_iff_forall_not_mem.2 none
    rw [nothing, List.append_nil]
    exact either before _ begun

end CallsOnly

/-- In these surroundings the action may come to this value and this state. -/
structure MayReach (around : Surroundings I σ) (x : Action I α) (s : σ) (value : α) (t : σ) :
    Prop where
  plays : ∃ log, x.run.Plays around s log (.done (.ok value)) t

/-- In these surroundings the action may come to make such a call. -/
structure MayCall (around : Surroundings I σ) (x : Action I α) (s : σ) (such : I.Call → Prop) :
    Prop where
  plays : ∃ log rest t, x.run.Plays around s log rest t ∧ ∃ exchange ∈ log, such exchange.1

section May

variable {around : Surroundings I σ} {t u : σ} {value : α}

theorem MayReach.bind {x : Action I α} {f : α → Action I β} {last : β}
    (first : x.MayReach around s value t) (second : (f value).MayReach around t last u) :
    (x >>= f).MayReach around s last u := by
  obtain ⟨before, begun⟩ := first
  obtain ⟨after, ended⟩ := second
  constructor
  rw [run_bind]
  exact ⟨before ++ after, begun.bind ended⟩

theorem MayReach.pure : (Pure.pure value : Action I α).MayReach around s value s :=
  ⟨[], .stop _ _⟩

theorem MayReach.ofExcept {outcome : Except PublishError α} (ok : outcome = .ok value) :
    (Action.ofExcept outcome : Action I α).MayReach around s value s := by
  subst ok
  exact ⟨[], .stop _ _⟩

theorem MayReach.always {p : Program I α} {log : List I.Exchange}
    (plays : p.Plays around s log (.done value) t) : (Action.always p).MayReach around s value t :=
  ⟨log, plays.bind_left _⟩

theorem MayReach.persisted {p : Program I (Except ServiceFault α)} {log : List I.Exchange}
    (plays : p.Plays around s log (.done (.ok value)) t) :
    (Action.persisted p).MayReach around s value t := ⟨log, plays.bind_left _⟩

theorem MayReach.delivered {p : Program I (Except ServiceFault α)} {log : List I.Exchange}
    (plays : p.Plays around s log (.done (.ok value)) t) :
    (Action.delivered p).MayReach around s value t := ⟨log, plays.bind_left _⟩

theorem MayReach.toServices {around : Surroundings Records σ} {work : Action Records α}
    (reach : work.MayReach around s value t) :
    work.toServices.MayReach around.withServices s value t := by
  obtain ⟨log, plays⟩ := reach
  exact ⟨_, plays.withServices⟩

theorem MayCall.after {x : Action I α} {f : α → Action I β} {such : I.Call → Prop}
    {before : List I.Exchange} (begun : x.run.Plays around s before (.done (.ok value)) t)
    (second : (f value).MayCall around t such) : ∃ after rest u,
      (x >>= f).run.Plays around s (before ++ after) rest u ∧
        ∃ exchange ∈ after, such exchange.1 := by
  obtain ⟨after, rest, u, ended, called⟩ := second
  refine ⟨after, rest, u, ?_, called⟩
  rw [run_bind]
  exact begun.bind ended

theorem MayCall.bind {x : Action I α} {f : α → Action I β} {such : I.Call → Prop}
    (first : x.MayReach around s value t) (second : (f value).MayCall around t such) :
    (x >>= f).MayCall around s such := by
  obtain ⟨before, begun⟩ := first
  obtain ⟨after, rest, u, plays, exchange, member, is⟩ := MayCall.after begun second
  exact ⟨before ++ after, rest, u, plays, exchange, List.mem_append_right _ member, is⟩

theorem MayCall.bind_left {x : Action I α} {such : I.Call → Prop}
    (may : x.MayCall around s such) (f : α → Action I β) : (x >>= f).MayCall around s such := by
  obtain ⟨log, rest, last, plays, called⟩ := may
  constructor
  rw [run_bind]
  exact ⟨log, _, last, plays.bind_left _, called⟩

theorem MayCall.always {x : Action I α} {such : I.Call → Prop}
    (may : x.MayCall around s such) : (Action.always x.run).MayCall around s such := by
  obtain ⟨log, rest, last, plays, called⟩ := may
  exact ⟨log, _, last, plays.bind_left _, called⟩

end May

end Action

end Syndication
