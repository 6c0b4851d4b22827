import Syndication.Proofs.Conduct

namespace Syndication

/-- Surroundings of a program, and how others may move the state between two of its calls. -/
structure Scene (I : Interface) (σ : Type) where
  around : Surroundings I σ
  moves : σ → σ → Prop

namespace Scene

variable {I : Interface} {σ : Type}

/-- Nobody else is there. -/
def alone (around : Surroundings I σ) : Scene I σ := ⟨around, fun s t => t = s⟩

def withServices (scene : Scene Records σ) : Scene Services σ :=
  ⟨scene.around.withServices, scene.moves⟩

end Scene

def Discipline.scene {I : Interface} {σ : Type} (D : Discipline I σ) : Scene I σ :=
  ⟨D.around, fun s t => D.rely s t ∧ D.sound t⟩

/-- Where a program stands. -/
inductive Stand (α : Type) where
  | underway
  | overflown
  | ended (value : α)

def Stand.map {α β : Type} (g : α → β) : Stand α → Stand β
  | underway => underway
  | overflown => overflown
  | ended value => ended (g value)

namespace Program

variable {I : Interface} {α β δ σ : Type}

def stand : Program I α → Stand α
  | .done value => .ended value
  | .call .. => .underway
  | .overflow => .overflown

theorem stand_eq_ended {p : Program I α} {value : α} :
    p.stand = .ended value ↔ p = .done value := by
  cases p <;> simp [stand]

theorem stand_eq_overflown {p : Program I α} : p.stand = .overflown ↔ p = .overflow := by
  cases p <;> simp [stand]

theorem stand_ne_underway {p : Program I α} (isOver : p.IsOver) : p.stand ≠ .underway := by
  cases p <;> simp [stand, IsOver] at isOver ⊢

/-- `p.Goes scene s log q t`: among others, `p` has become `q` after the log, and the state `s` has
become `t` by its last call. -/
inductive Goes (scene : Scene I σ) : Program I α → σ → List I.Exchange → Program I α → σ → Prop
  | stop (p : Program I α) (s : σ) : Goes scene p s [] p s
  | call {c : I.Call} {next : I.Answer c → Program I α} {a : I.Answer c} {log : List I.Exchange}
      {q : Program I α} {s t u v : σ} : scene.moves s t → scene.around t c a u →
      Goes scene (next a) u log q v → Goes scene (.call c next) s (⟨c, a⟩ :: log) q v

/-- However its calls are answered and whatever others do, the record of the program, the place
where it stands and the state are as `course` says, at every point from here on. -/
def Does (scene : Scene I σ) (view : I.Exchange → Option δ)
    (course : List δ → Stand α → σ → Prop) : Program I α → List δ → σ → Prop
  | .done value, past, s => course past (.ended value) s
  | .overflow, past, s => course past .overflown s
  | .call c next, past, s => course past .underway s ∧
      ∀ t a u, scene.moves s t → scene.around t c a u →
        (next a).Does scene view course (past ++ (view ⟨c, a⟩).toList) u

theorem Goes.snoc {scene : Scene I σ} {p : Program I α} {s t u v : σ} {log : List I.Exchange}
    {c : I.Call} {next : I.Answer c → Program I α} {a : I.Answer c}
    (goes : p.Goes scene s log (.call c next) t) (moved : scene.moves t u)
    (answered : scene.around u c a v) : p.Goes scene s (log ++ [⟨c, a⟩]) (next a) v := by
  generalize same : Program.call c next = q at goes
  induction goes with
  | stop p s =>
    subst same
    exact .call moved answered (.stop _ _)
  | call first now _ ih => exact .call first now (ih moved same)

theorem Plays.goes {around : Surroundings I σ} {p q : Program I α} {log : List I.Exchange}
    {s t : σ} (plays : p.Plays around s log q t) : p.Goes (.alone around) s log q t := by
  induction plays with
  | stop => exact .stop _ _
  | call answered _ ih => exact .call rfl answered ih

/-- A program that is alone and keeps its contract goes on as one among others does. -/
theorem Plays.goes_of_meets {D : Discipline I σ} {post : α → σ → Prop} {p q : Program I α}
    {log : List I.Exchange} {s t : σ} (plays : p.Plays D.around s log q t)
    (meets : p.Meets D post s) (sound : D.sound s) : p.Goes D.scene s log q t := by
  induction plays with
  | stop => exact .stop _ _
  | call answered _ ih =>
    obtain ⟨permitted, goesOn⟩ := meets _ (D.refl _) sound
    exact .call ⟨D.refl _, sound⟩ answered
      (ih (goesOn _ _ answered) (D.keeps sound permitted answered))

section Does

variable {scene : Scene I σ} {view : I.Exchange → Option δ} {course : List δ → Stand α → σ → Prop}
  {p : Program I α} {past : List δ} {s : σ}

theorem Does.here (does : p.Does scene view course past s) : course past p.stand s := by
  cases p with
  | done value => exact does
  | overflow => exact does
  | call c next => exact does.1

theorem Does.goes {q : Program I α} {log : List I.Exchange} {t : σ}
    (does : p.Does scene view course past s) (goes : p.Goes scene s log q t) :
    course (past ++ log.filterMap view) q.stand t := by
  induction goes generalizing past with
  | stop p s => simpa using does.here
  | @call c next a log q s t u v moved answered _ ih =>
    have rest := ih (does.2 t a u moved answered)
    cases seen : view ⟨c, a⟩ <;> simpa [seen, List.filterMap_cons] using rest

theorem Does.weaken {weaker : List δ → Stand α → σ → Prop}
    (does : p.Does scene view course past s)
    (weaken : ∀ past stand t, course past stand t → weaker past stand t) :
    p.Does scene view weaker past s := by
  induction p generalizing past s with
  | done value => exact weaken _ _ _ does
  | overflow => exact weaken _ _ _ does
  | call c next ih =>
    exact ⟨weaken _ _ _ does.1, fun t a u moved answered => ih a (does.2 t a u moved answered)⟩

theorem Does.bind {mid : List δ → Stand α → σ → Prop} {course : List δ → Stand β → σ → Prop}
    {f : α → Program I β} (first : p.Does scene view mid past s)
    (underway : ∀ past t, mid past .underway t → course past .underway t)
    (overflown : ∀ past t, mid past .overflown t → course past .overflown t)
    (next : ∀ past value t, mid past (.ended value) t → (f value).Does scene view course past t) :
    (p.bind f).Does scene view course past s := by
  induction p generalizing past s with
  | done value => exact next _ _ _ first
  | overflow => exact overflown _ _ first
  | call c rest ih =>
    exact ⟨underway _ _ first.1, fun t a u moved answered => ih a (first.2 t a u moved answered)⟩

theorem Does.and {other : List δ → Stand α → σ → Prop} (does : p.Does scene view course past s)
    (also : p.Does scene view other past s) :
    p.Does scene view (fun now stand t => course now stand t ∧ other now stand t) past s := by
  induction p generalizing past s with
  | done value => exact ⟨does, also⟩
  | overflow => exact ⟨does, also⟩
  | call c next ih =>
    refine ⟨⟨does.1, also.1⟩, fun t a u moved answered => ?_⟩
    exact ih a (does.2 t a u moved answered) (also.2 t a u moved answered)

/-- What is recorded stays recorded. -/
theorem Does.records (p : Program I α) (past : List δ) (s : σ) :
    p.Does scene view (fun now _ _ => past <+: now) past s := by
  induction p generalizing past s with
  | done value => exact List.prefix_refl past
  | overflow => exact List.prefix_refl past
  | call c next ih =>
    refine ⟨List.prefix_refl past, fun t a u _ _ => ?_⟩
    exact (ih a _ u).weaken fun now _ _ later => (List.prefix_append ..).trans later

theorem Does.map {course : List δ → Stand β → σ → Prop} {g : α → β}
    (does : p.Does scene view (fun past stand t => course past (stand.map g) t) past s) :
    (p.bind fun value => .done (g value)).Does scene view course past s :=
  does.bind (fun _ _ is => is) (fun _ _ is => is) fun _ _ _ is => is

theorem Does.ask (c : I.Call) {course : List δ → Stand (I.Answer c) → σ → Prop}
    (underway : course past .underway s)
    (answered : ∀ t a u, scene.moves s t → scene.around t c a u →
      course (past ++ (view ⟨c, a⟩).toList) (.ended a) u) :
    (Program.ask c).Does scene view course past s := ⟨underway, answered⟩

theorem Does.ask_alone {around : Surroundings I σ} (c : I.Call)
    {course : List δ → Stand (I.Answer c) → σ → Prop} (underway : course past .underway s)
    (answered : ∀ a t, around s c a t → course (past ++ (view ⟨c, a⟩).toList) (.ended a) t) :
    (Program.ask c).Does (.alone around) view course past s := by
  refine .ask c underway fun t a u moved => ?_
  obtain rfl : t = s := moved
  exact answered a u

/-- A program whose calls the view does not show leaves the record as it is. -/
theorem Does.unseen (unseen : p.Yields (fun c => ∀ a, view ⟨c, a⟩ = none) fun _ => True) :
    p.Does scene view (fun now _ _ => now = past) past s := by
  induction p generalizing s with
  | done value => rfl
  | overflow => rfl
  | call c next ih =>
    obtain ⟨none, goesOn⟩ := unseen () trivial trivial
    refine ⟨rfl, fun t a u _ _ => ?_⟩
    simpa [none a] using ih a (goesOn a () trivial) (s := u)

/-- A program that keeps a contract keeps it whatever is recorded of it. -/
theorem Does.and_meets {D : Discipline I σ} {post : α → σ → Prop}
    (does : p.Does D.scene view course past s) (meets : p.Meets D post s) (sound : D.sound s) :
    p.Does D.scene view (fun now stand t => course now stand t ∧
      (∀ value, stand = .ended value → post value t) ∧ D.sound t ∧ D.rely s t) past s := by
  -- the state goes on from call to call, and what is said of it is said of its start
  suffices general : ∀ start, D.rely start s →
      p.Does D.scene view (fun now stand t => course now stand t ∧
        (∀ value, stand = .ended value → post value t) ∧ D.sound t ∧ D.rely start t) past s from
    general s (D.refl s)
  intro start so
  induction p generalizing past s with
  | done value => exact ⟨does, by rintro _ ⟨⟩; exact meets, sound, so⟩
  | overflow => exact ⟨does, by simp, sound, so⟩
  | call c next ih =>
    refine ⟨⟨does.1, by simp, sound, so⟩, fun t a u moved answered => ?_⟩
    obtain ⟨permitted, goesOn⟩ := meets t moved.1 moved.2
    have onward := D.trans (D.trans so moved.1) (D.moves moved.2 permitted answered)
    exact ih a (does.2 t a u moved answered) (goesOn a u answered)
      (D.keeps moved.2 permitted answered) onward

end Does

end Program

namespace Action

variable {I : Interface} {α β δ σ : Type} {scene : Scene I σ} {view : I.Exchange → Option δ}
  {past : List δ} {s : σ}

structure Does (scene : Scene I σ) (view : I.Exchange → Option δ)
    (course : List δ → Stand (Except PublishError α) → σ → Prop) (x : Action I α) (past : List δ)
    (s : σ) : Prop where
  does : x.run.Does scene view course past s

variable {course : List δ → Stand (Except PublishError α) → σ → Prop} {x : Action I α}

theorem Does.weaken {weaker : List δ → Stand (Except PublishError α) → σ → Prop}
    (does : x.Does scene view course past s)
    (weaken : ∀ past stand t, course past stand t → weaker past stand t) :
    x.Does scene view weaker past s := ⟨does.does.weaken weaken⟩

theorem Does.and {other : List δ → Stand (Except PublishError α) → σ → Prop}
    (does : x.Does scene view course past s) (also : x.Does scene view other past s) :
    x.Does scene view (fun now stand t => course now stand t ∧ other now stand t) past s :=
  ⟨does.does.and also.does⟩

/-- Where an action stands that has come to no value, and so has every action that begins with
it. -/
inductive Broken : Stand (Except PublishError α) → Stand (Except PublishError β) → Prop
  | underway : Broken .underway .underway
  | overflown : Broken .overflown .overflown
  | failed (error : PublishError) : Broken (.ended (.error error)) (.ended (.error error))

theorem Does.bind {mid : List δ → Stand (Except PublishError α) → σ → Prop}
    {course : List δ → Stand (Except PublishError β) → σ → Prop} {f : α → Action I β}
    (first : x.Does scene view mid past s)
    (broken : ∀ past stand now t, Broken stand now → mid past stand t → course past now t)
    (next : ∀ past value t, mid past (.ended (.ok value)) t →
      (f value).Does scene view course past t) : (x >>= f).Does scene view course past s := by
  constructor
  rw [run_bind]
  refine first.does.bind (fun _ _ => broken _ _ _ _ .underway)
    (fun _ _ => broken _ _ _ _ .overflown) fun past outcome t is => ?_
  cases outcome with
  | ok value => exact (next past value t is).does
  | error error => exact broken _ _ _ _ (.failed error) is

theorem Does.pure {value : α} (is : course past (.ended (.ok value)) s) :
    (Pure.pure value : Action I α).Does scene view course past s := ⟨is⟩

theorem Does.throw {error : PublishError} (is : course past (.ended (.error error)) s) :
    (MonadExcept.throw error : Action I α).Does scene view course past s := ⟨is⟩

theorem Does.ofExcept {outcome : Except PublishError α} (is : course past (.ended outcome) s) :
    (Action.ofExcept outcome : Action I α).Does scene view course past s := ⟨is⟩

theorem Does.always {p : Program I α}
    (does : p.Does scene view (fun past stand t => course past (stand.map .ok) t) past s) :
    (Action.always p).Does scene view course past s := ⟨does.map⟩

theorem Does.always_bind {mid : List δ → Stand α → σ → Prop} {p : Program I α}
    {course : List δ → Stand (Except PublishError β) → σ → Prop} {f : α → Action I β}
    (first : p.Does scene view mid past s)
    (underway : ∀ past t, mid past .underway t → course past .underway t)
    (overflown : ∀ past t, mid past .overflown t → course past .overflown t)
    (next : ∀ past value t, mid past (.ended value) t →
      (f value).Does scene view course past t) :
    (Action.always p >>= f).Does scene view course past s := by
  constructor
  rw [run_bind, Action.always, ExceptT.run_mk, Program.bind_assoc]
  exact first.bind underway overflown fun past value t is => (next past value t is).does

theorem Does.persisted {p : Program I (Except ServiceFault α)}
    (does : p.Does scene view
      (fun past stand t => course past (stand.map (Except.mapError .persistence)) t) past s) :
    (Action.persisted p).Does scene view course past s := ⟨does.map⟩

theorem Does.delivered {p : Program I (Except ServiceFault α)}
    (does : p.Does scene view
      (fun past stand t => course past (stand.map (Except.mapError .eventPublish)) t) past s) :
    (Action.delivered p).Does scene view course past s := ⟨does.map⟩

/-- An action that ends with a value if it ends, and what this value and the state are then. -/
def Comes (post : α → σ → Prop) (_ : List δ) : Stand (Except PublishError α) → σ → Prop
  | .underway, _ => True
  | .ended (.ok value), t => post value t
  | _, _ => False

theorem Does.comes_weaken {post weaker : α → σ → Prop} (does : x.Does scene view (Comes post) past s)
    (weaken : ∀ value t, post value t → weaker value t) :
    x.Does scene view (Comes weaker) past s := by
  refine does.weaken fun now stand t is => ?_
  match stand with
  | .underway => trivial
  | .ended (.ok value) => exact weaken value t is

theorem Does.comes_bind {mid : α → σ → Prop} {post : β → σ → Prop} {f : α → Action I β}
    (first : x.Does scene view (Comes mid) past s)
    (next : ∀ now value t, mid value t → (f value).Does scene view (Comes post) now t) :
    (x >>= f).Does scene view (Comes post) past s := by
  refine first.bind (fun now stand last t broken is => ?_) next
  cases broken with
  | underway => trivial
  | overflown => cases is
  | failed error => cases is

theorem CallsOnly.does (unseen : x.CallsOnly fun c => ∀ a, view ⟨c, a⟩ = none) :
    x.Does scene view (fun now _ _ => now = past) past s :=
  ⟨.unseen (unseen.meets.weaken fun _ _ _ => trivial)⟩

theorem Does.and_ensures {D : Discipline I σ} {post : α → σ → Prop}
    (does : x.Does D.scene view course past s) (ensures : x.Ensures D post s)
    (sound : D.sound s) : x.Does D.scene view (fun now stand t => course now stand t ∧
      (∀ value, stand = .ended (.ok value) → post value t) ∧ D.sound t ∧ D.rely s t) past s := by
  refine ⟨(does.does.and_meets ensures.meets sound).weaken fun now stand t => ?_⟩
  rintro ⟨is, reached, rest⟩
  exact ⟨is, fun value here => reached _ here value rfl, rest⟩

end Action

end Syndication
