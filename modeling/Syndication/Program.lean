namespace Syndication

/-- What can be asked, and what kind of answer each question has. -/
structure Interface where
  Call : Type
  Answer : Call → Type

/-- A program is done with a value, or it makes one call and goes on with whatever is answered.
Since every call is a node of its own, other programs can be imagined to run between any two calls.
A program may also end without a value because its arithmetic on times left the calendar. -/
inductive Program (I : Interface) (α : Type) where
  | done (value : α)
  | call (c : I.Call) (next : I.Answer c → Program I α)
  | overflow

namespace Program

variable {I J : Interface} {α β : Type}

/-- Goes on with `f` wherever the program is done. -/
def bind (f : α → Program I β) : Program I α → Program I β
  | done value => f value
  | call c next => call c fun answer => (next answer).bind f
  | overflow => overflow

instance : Monad (Program I) where
  pure := done
  bind p f := p.bind f

/-- One call, and its answer as the value. -/
def ask (c : I.Call) : Program I (I.Answer c) := call c done

/-- The value of a calculation on times, if there is one. -/
def ofCalendar : Option α → Program I α
  | some value => done value
  | none => overflow

/-- The program with each call carried out by a program of another interface. -/
def through (carryOut : (c : I.Call) → Program J (I.Answer c)) : Program I α → Program J α
  | done value => done value
  | call c next => (carryOut c).bind fun answer => (next answer).through carryOut
  | overflow => overflow

/-- Runs a program alone: the surroundings have a state, and answer each call from it. -/
def run {σ : Type} (perform : (c : I.Call) → σ → I.Answer c × σ) :
    Program I α → σ → Option α × σ
  | done value, s => (some value, s)
  | call c next, s =>
    let (answer, s) := perform c s
    (next answer).run perform s
  | overflow, s => (none, s)

@[simp] theorem pure_eq (value : α) : (pure value : Program I α) = done value := rfl

@[simp] theorem bind_eq (p : Program I α) (f : α → Program I β) : p >>= f = p.bind f := rfl

@[simp] theorem done_bind (value : α) (f : α → Program I β) : (done value).bind f = f value := rfl

@[simp] theorem call_bind (c : I.Call) (next : I.Answer c → Program I α) (f : α → Program I β) :
    (call c next).bind f = call c fun answer => (next answer).bind f := rfl

@[simp] theorem overflow_bind (f : α → Program I β) :
    (overflow : Program I α).bind f = overflow := rfl

@[simp] theorem ask_bind (c : I.Call) (f : I.Answer c → Program I β) :
    (ask c).bind f = call c f := rfl

@[simp] theorem bind_done (p : Program I α) : p.bind done = p := by
  induction p with
  | done value => rfl
  | call c next ih => simp [bind, ih]
  | overflow => rfl

theorem bind_assoc {γ : Type} (p : Program I α) (f : α → Program I β) (g : β → Program I γ) :
    (p.bind f).bind g = p.bind fun a => (f a).bind g := by
  induction p with
  | done value => rfl
  | call c next ih => simp [bind, ih]
  | overflow => rfl

instance : LawfulMonad (Program I) :=
  LawfulMonad.mk' (Program I) (fun p => bind_done p) (fun _ _ => rfl)
    (fun p f g => bind_assoc p f g)

end Program

end Syndication
