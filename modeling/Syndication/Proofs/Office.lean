import Mathlib.Data.List.Basic
import Syndication.Proofs.Execution

namespace Syndication

inductive Task where
  | execute (engine : Engine) (request : Request)
  | openJob (budget : UInt32) (request : Request)
  | start (job : Job)
  | succeed (job : Job) (result : PublishResult)
  | fail (job : Job) (message : String)
  | postOf (job : Job)

inductive Reply where
  | executed (execution : Execution)
  | opened (job : Job)
  | succeeded (job : Job) (post : Option Post)
  | failed (job : Job) (isNew : Bool)
  | found (post : Option Post)

namespace Reply

/-- The copy of a job that a reply hands out. -/
def job? : Reply → Option Job
  | .executed execution => some execution.job
  | .opened job | .succeeded job _ | .failed job _ => some job
  | .found _ => none

def Fits (s : Stores) (reply : Reply) : Prop :=
  (∀ job, reply.job? = some job → s.Holds job) ∧
    ∀ execution, reply = .executed execution → execution.Agrees s

theorem Fits.later {s t : Stores} {reply : Reply} (fits : reply.Fits s) (later : s.Later t) :
    reply.Fits t :=
  ⟨fun job has => (fits.1 job has).later later,
    fun execution is => (fits.2 execution is).later later⟩

end Reply

namespace Task

def action : Task → Action Services Reply
  | .execute engine request => do return .executed (← engine.execute request)
  | .openJob budget request => do return .opened (← (Ledger.openJob budget request).toServices)
  | .start job => do return .opened (← (Ledger.start job).toServices)
  | .succeed job result => do
    let (job, post) ← (Ledger.succeed job result).toServices
    return .succeeded job post
  | .fail job message => do
    let (job, isNew) ← (Ledger.fail job message).toServices
    return .failed job isNew
  | .postOf job => do return .found (← (Ledger.postOf job).toServices)

/-- The copy of a job that a task is begun on. -/
def job? : Task → Option Job
  | .execute .. | .openJob .. => none
  | .start job | .succeed job _ | .fail job _ | .postOf job => some job

def isPostOf : Task → Bool
  | .postOf _ => true
  | _ => false

/-- The discipline that the program of a task is under. Only who asks for the post of a job may
find none. -/
abbrev discipline (task : Task) : Discipline Services Stores := .publishing (task.isPostOf = true)

theorem ensures {s : Stores} (sound : s.Sound) (task : Task)
    (holds : ∀ job, task.job? = some job → s.Holds job) :
    task.action.Ensures task.discipline (fun reply t => reply.Fits t) s := by
  cases task with
  | execute engine request =>
    refine (Engine.execute_ensures sound engine request).bind sound
      fun execution t _ _ reports => ?_
    refine .pure ⟨?_, ?_⟩
    · rintro _ ⟨⟩
      exact reports.1
    · rintro _ ⟨⟩
      exact reports.2
  | openJob budget request =>
    refine (Ledger.openJob_ensures sound budget request).toServices.bind sound
      fun job t _ _ opened => ?_
    refine .pure ⟨?_, by simp⟩
    rintro _ ⟨⟩
    exact Stores.holds_of_find? opened.1
  | start job =>
    refine (Ledger.start_ensures sound (holds job rfl)).toServices.bind sound
      fun started t _ _ held => ?_
    refine .pure ⟨?_, by simp⟩
    rintro _ ⟨⟩
    exact held.2
  | succeed job result =>
    refine (Ledger.succeed_ensures sound (holds job rfl) result).toServices.bind sound
      fun answer t _ _ held => ?_
    refine .pure ⟨?_, by simp⟩
    rintro _ ⟨⟩
    exact held.2.1
  | fail job message =>
    refine (Ledger.fail_ensures sound (holds job rfl) message).toServices.bind sound
      fun answer t _ _ held => ?_
    refine .pure ⟨?_, by simp⟩
    rintro _ ⟨⟩
    exact held.2.1
  | postOf job =>
    have read : (Ledger.postOf job).Ensures (.bookkeeping (isPostOf (.postOf job) = true))
        (fun _ _ => True) s :=
      .persisted fun _ _ _ => ⟨.inr rfl, fun _ _ _ _ _ => trivial⟩
    refine read.toServices.bind sound fun post t _ _ _ => ?_
    refine .pure ⟨?_, by simp⟩
    rintro _ ⟨⟩

end Task

/-- A task, and what is left of its program. -/
structure Errand where
  task : Task
  rest : Program Services (Except PublishError Reply)

/-- Any number of errands on the same stores. A new one may begin at any time, and at any time one
may have its next call answered; which one, and how, is left open. Operations of the ledger are
begun only on copies of jobs that an earlier errand handed out. -/
structure Office where
  stores : Stores := {}
  errands : List Errand := []

abbrev OfficeLog := List (Nat × Services.Exchange)

def OfficeLog.of (log : OfficeLog) (i : Nat) : List Services.Exchange :=
  log.filterMap fun entry => if entry.1 = i then some entry.2 else none

theorem OfficeLog.mem_of {log : OfficeLog} {i : Nat} {exchange : Services.Exchange} :
    exchange ∈ log.of i ↔ (i, exchange) ∈ log := by
  simp only [of, List.mem_filterMap]
  constructor
  · rintro ⟨⟨j, other⟩, member, found⟩
    split at found
    · rename_i same
      cases same
      cases found
      exact member
    · cases found
  · intro member
    exact ⟨(i, exchange), member, by simp⟩

namespace Office

def HandsOut (office : Office) (job : Job) : Prop :=
  ∃ errand ∈ office.errands, ∃ reply, errand.rest = .done (.ok reply) ∧ reply.job? = some job

def add (office : Office) (task : Task) : Office :=
  { office with errands := office.errands ++ [⟨task, task.action.run⟩] }

def goOn (office : Office) (i : Nat) (errand : Errand) (stores : Stores) : Office :=
  ⟨stores, office.errands.set i errand⟩

/-- `Runs a log b`: the office `a` may become `b`, with the calls in the log. -/
inductive Runs (a : Office) : OfficeLog → Office → Prop
  | refl : Runs a [] a
  | add {log : OfficeLog} {b : Office} (task : Task) : Runs a log b →
      (∀ job, task.job? = some job → b.HandsOut job) → Runs a log (b.add task)
  | call {log : OfficeLog} {b : Office} {i : Nat} {task : Task} {c : ServiceCall}
      {next : c.Answer → Program Services (Except PublishError Reply)} {answer : c.Answer}
      {stores : Stores} : Runs a log b → b.errands[i]? = some ⟨task, .call c next⟩ →
      b.stores.Replies c answer stores →
      Runs a (log ++ [(i, ⟨c, answer⟩)]) (b.goOn i ⟨task, next answer⟩ stores)

/-- The stores are sound, and what is left of every errand keeps its contract. -/
structure Sound (office : Office) : Prop where
  stores : office.stores.Sound
  errands : ∀ errand ∈ office.errands, errand.rest.Meets errand.task.discipline
    (fun outcome t => ∀ reply, outcome = .ok reply → reply.Fits t) office.stores

theorem Sound.empty : Sound {} := ⟨.empty, by simp⟩

theorem Sound.holds {office : Office} (sound : office.Sound) {job : Job}
    (handsOut : office.HandsOut job) : office.stores.Holds job := by
  obtain ⟨errand, member, reply, done, has⟩ := handsOut
  have fits := sound.errands errand member
  rw [done] at fits
  exact (fits reply rfl).1 job has

theorem Sound.add {office : Office} (sound : office.Sound) (task : Task)
    (handedOut : ∀ job, task.job? = some job → office.HandsOut job) : (office.add task).Sound where
  stores := sound.stores
  errands errand member := by
    rcases List.mem_append.1 member with old | new
    · exact sound.errands errand old
    · obtain rfl := List.mem_singleton.1 new
      exact (task.ensures sound.stores fun job has => sound.holds (handedOut job has)).meets

/-- A call of one errand is permitted, keeps the stores sound, and moves them as all other errands
rely on it. -/
theorem Sound.call {office : Office} (sound : office.Sound) {i : Nat} {task : Task}
    {c : ServiceCall} {next : c.Answer → Program Services (Except PublishError Reply)}
    {answer : c.Answer} {stores : Stores} (here : office.errands[i]? = some ⟨task, .call c next⟩)
    (answered : office.stores.Replies c answer stores) :
    task.discipline.permits office.stores c ∧ office.stores.Later stores ∧
      (office.goOn i ⟨task, next answer⟩ stores).Sound := by
  have member := List.mem_of_getElem? here
  obtain ⟨permitted, goesOn⟩ := sound.errands _ member office.stores (.refl _) sound.stores
  have later := task.discipline.moves sound.stores permitted answered
  refine ⟨permitted, later, task.discipline.keeps sound.stores permitted answered, ?_⟩
  intro errand member
  rcases List.mem_or_eq_of_mem_set member with other | rfl
  · -- to any other errand this call is a move that it relies on
    refine (sound.errands errand other).rely ?_ later
    exact fun outcome {s t} later fits reply is => (fits reply is).later later
  · exact goesOn answer stores answered

theorem Runs.sound {a b : Office} {log : OfficeLog} (runs : Runs a log b) (sound : a.Sound) :
    b.Sound ∧ a.stores.Later b.stores := by
  induction runs with
  | refl => exact ⟨sound, .refl _⟩
  | add task _ handedOut ih => exact ⟨ih.1.add task handedOut, ih.2⟩
  | call _ here answered ih =>
    obtain ⟨_, later, kept⟩ := ih.1.call here answered
    exact ⟨kept, ih.2.trans later⟩

theorem task_add {office : Office} {task : Task} {i : Nat} {errand : Errand}
    (here : office.errands[i]? = some errand) : (office.add task).errands[i]? = some errand := by
  obtain ⟨bound, _⟩ := List.getElem?_eq_some_iff.1 here
  rw [add, List.getElem?_append_left bound, here]

theorem task_goOn {office : Office} {i j : Nat} {errand other : Errand}
    (here : office.errands[i]? = some errand) (there : office.errands[j]? = some other)
    {moved : Errand} (same : moved.task = errand.task) (stores : Stores) :
    ∃ later, (office.goOn i moved stores).errands[j]? = some later ∧ later.task = other.task := by
  obtain ⟨bound, _⟩ := List.getElem?_eq_some_iff.1 here
  by_cases both : i = j
  · subst both
    obtain rfl : errand = other := by simpa [here] using there
    exact ⟨moved, List.getElem?_set_self bound, same⟩
  · exact ⟨other, by rw [goOn, List.getElem?_set_ne both, there], rfl⟩

/-- Every call in a log was permitted, and answered by sound stores that lie between the two ends
of the run. -/
theorem Runs.answered {a b : Office} {log : OfficeLog} (runs : Runs a log b) (sound : a.Sound)
    {i : Nat} {c : ServiceCall} {answer : c.Answer} (member : (i, ⟨c, answer⟩) ∈ log) :
    ∃ errand, b.errands[i]? = some errand ∧ ∃ s t : Stores, a.stores.Later s ∧ s.Sound ∧
      errand.task.discipline.permits s c ∧ s.Replies c answer t ∧ t.Later b.stores := by
  induction runs with
  | refl => cases member
  | add task _ _ ih =>
    obtain ⟨errand, here, rest⟩ := ih member
    exact ⟨errand, task_add here, rest⟩
  | @call log b j task _ next reply stores before here answered ih =>
    have soundB := before.sound sound
    obtain ⟨permitted, later, _⟩ := soundB.1.call here answered
    rcases List.mem_append.1 member with old | new
    · obtain ⟨errand, there, s, t, begun, soundS, permittedS, answeredS, laterT⟩ := ih old
      have sameTask : (Errand.mk task (next reply)).task = task := rfl
      obtain ⟨moved, now, same⟩ := task_goOn here there sameTask stores
      refine ⟨moved, now, s, t, begun, soundS, ?_, answeredS, laterT.trans later⟩
      rwa [same]
    · cases List.mem_singleton.1 new
      obtain ⟨bound, _⟩ := List.getElem?_eq_some_iff.1 here
      exact ⟨_, List.getElem?_set_self bound, _, _, soundB.2, soundB.1.stores, permitted, answered,
        .refl _⟩

theorem Runs.trans {a b c : Office} {first second : OfficeLog} (before : Runs a first b)
    (after : Runs b second c) : Runs a (first ++ second) c := by
  induction after with
  | refl => simpa using before
  | add task _ handedOut ih => exact ih.add task handedOut
  | call _ here answered ih =>
    rw [← List.append_assoc]
    exact ih.call here answered

/-- A run whose log has two parts stood somewhere between them. -/
theorem Runs.split {a c : Office} {first second : OfficeLog} (runs : Runs a (first ++ second) c) :
    ∃ b, Runs a first b ∧ Runs b second c := by
  generalize whole : first ++ second = log at runs
  induction runs generalizing second with
  | refl =>
    obtain ⟨rfl, rfl⟩ := List.append_eq_nil_iff.1 whole
    exact ⟨a, .refl, .refl⟩
  | add task _ handedOut ih =>
    obtain ⟨b, before, after⟩ := ih whole
    exact ⟨b, before, after.add task handedOut⟩
  | call runs here answered ih =>
    rcases second.eq_nil_or_concat with rfl | ⟨rest, last, rfl⟩
    · rw [List.append_nil] at whole
      subst whole
      exact ⟨_, .call runs here answered, .refl⟩
    · rw [List.concat_eq_append, ← List.append_assoc] at whole
      obtain ⟨older, newest⟩ := List.append_inj' whole rfl
      obtain ⟨b, before, after⟩ := ih older
      refine ⟨b, before, ?_⟩
      rw [List.concat_eq_append, newest]
      exact after.call here answered

/-- The last call of a run left the stores as they are. -/
theorem Runs.last {a b : Office} {log : OfficeLog} {i : Nat} {c : ServiceCall} {answer : c.Answer}
    (runs : Runs a (log ++ [(i, ⟨c, answer⟩)]) b) : ∃ s : Stores, s.Replies c answer b.stores := by
  generalize whole : log ++ [(i, (⟨c, answer⟩ : Services.Exchange))] = calls at runs
  induction runs with
  | refl => simp at whole
  | add task _ _ ih => exact ih whole
  | call _ _ answered _ =>
    obtain ⟨_, same⟩ := List.append_inj' whole rfl
    cases List.singleton_inj.1 same
    exact ⟨_, answered⟩

theorem Runs.numbers_lt {a b : Office} {log : OfficeLog} (runs : Runs a log b) {i : Nat}
    {exchange : Services.Exchange} (member : (i, exchange) ∈ log) : i < b.errands.length := by
  induction runs with
  | refl => cases member
  | add task _ _ ih =>
    rw [Office.add, List.length_append]
    exact Nat.lt_add_right _ (ih member)
  | call _ here _ ih =>
    rw [goOn, List.length_set]
    rcases List.mem_append.1 member with old | new
    · exact ih old
    · cases List.mem_singleton.1 new
      exact (List.getElem?_eq_some_iff.1 here).1

theorem Runs.no_calls {a b : Office} {log : OfficeLog} (runs : Runs a log b) {i : Nat}
    (unknown : ¬ i < b.errands.length) : log.of i = [] :=
  List.eq_nil_iff_forall_not_mem.2 fun _ member =>
    unknown (runs.numbers_lt (OfficeLog.mem_of.1 member))

/-- An errand that began in the run is what its calls have made of the program of its task. -/
theorem Runs.follows_since {a b : Office} {log : OfficeLog} (runs : Runs a log b)
    (idle : a.errands = []) {i : Nat} {errand : Errand} (here : b.errands[i]? = some errand) :
    errand.task.action.run.Follows (log.of i) errand.rest := by
  induction runs generalizing errand with
  | refl => simp [idle] at here
  | @add log b task runs _ ih =>
    by_cases old : i < b.errands.length
    · refine ih ?_
      rwa [Office.add, List.getElem?_append_left old] at here
    · -- the new errand has the next number, and no call in the log has it
      rw [Office.add, List.getElem?_append_right (by omega)] at here
      obtain rfl := List.mem_singleton.1 (List.mem_of_getElem? here)
      rw [runs.no_calls old]
      exact .stop _
  | @call log b j task c next answer stores runs there answered ih =>
    obtain ⟨bound, _⟩ := List.getElem?_eq_some_iff.1 there
    by_cases same : j = i
    · subst same
      obtain rfl : ⟨task, next answer⟩ = errand := by
        simpa [goOn, List.getElem?_set_self bound] using here
      simpa [OfficeLog.of] using (ih there).snoc answer
    · rw [goOn, List.getElem?_set_ne same] at here
      simpa [OfficeLog.of, same] using ih here

theorem Runs.follows {log : OfficeLog} {b : Office} (runs : Runs {} log b) {i : Nat}
    {errand : Errand} (here : b.errands[i]? = some errand) :
    errand.task.action.run.Follows (log.of i) errand.rest := runs.follows_since rfl here

theorem goOn_self {office : Office} {i : Nat} {errand : Errand}
    (here : office.errands[i]? = some errand) : office.goOn i errand office.stores = office := by
  obtain ⟨bound, same⟩ := List.getElem?_eq_some_iff.1 here
  subst same
  rw [goOn, List.set_getElem_self bound]

/-- An errand that goes on alone for a while goes on in the office. -/
theorem Runs.plays {a b : Office} {log : OfficeLog} (runs : Runs a log b) {i : Nat} {task : Task}
    {p q : Program Services (Except PublishError Reply)} {calls : List Services.Exchange}
    {stores : Stores} (here : b.errands[i]? = some ⟨task, p⟩)
    (plays : p.Plays Stores.Replies b.stores calls q stores) :
    Runs a (log ++ calls.map (Prod.mk i)) (b.goOn i ⟨task, q⟩ stores) := by
  generalize same : b.stores = begun at plays
  induction plays generalizing log b with
  | stop p s =>
    subst same
    simpa [goOn_self here] using runs
  | @call c next answer calls q s t u answered _ ih =>
    subst same
    obtain ⟨bound, _⟩ := List.getElem?_eq_some_iff.1 here
    have called := Runs.call runs here answered
    have rest := ih called (List.getElem?_set_self bound) rfl
    simpa [goOn, List.set_set] using rest

/-- A task that is begun may go on alone for a while. -/
theorem Runs.attend {a b : Office} {log : OfficeLog} (runs : Runs a log b) {task : Task}
    (handedOut : ∀ job, task.job? = some job → b.HandsOut job)
    {q : Program Services (Except PublishError Reply)} {calls : List Services.Exchange}
    {stores : Stores} (plays : task.action.run.Plays Stores.Replies b.stores calls q stores) :
    Runs a (log ++ calls.map (Prod.mk b.errands.length)) ⟨stores, b.errands ++ [⟨task, q⟩]⟩ := by
  have begun : (b.add task).errands[b.errands.length]? = some ⟨task, task.action.run⟩ := by
    simp [Office.add]
  simpa [goOn, Office.add] using (runs.add task handedOut).plays begun plays

end Office

end Syndication
