import Syndication.Proofs.Agreement
import Syndication.Proofs.Course

namespace Syndication

/-- The deeds of the errand with this number. -/
def OfficeLog.deeds (log : OfficeLog) (i : Nat) : List Deed := (log.of i).filterMap Deed.of?

theorem OfficeLog.mem_deeds_snoc {log : OfficeLog} {i k : Nat} {exchange : Services.Exchange}
    {deed : Deed} : deed ∈ OfficeLog.deeds (log ++ [(k, exchange)]) i ↔
      deed ∈ log.deeds i ∨ k = i ∧ Deed.of? exchange = some deed := by
  have grown : OfficeLog.of (log ++ [(k, exchange)]) i =
      log.of i ++ if k = i then [exchange] else [] := by
    by_cases same : k = i <;>
      simp only [of, List.filterMap_append, List.filterMap_cons, List.filterMap_nil, same, if_true,
        if_false]
  rw [deeds, grown, List.filterMap_append, List.mem_append, ← deeds]
  refine or_congr_right ?_
  by_cases same : k = i
  · simp only [same, if_true, true_and, List.mem_filterMap, List.mem_singleton, exists_eq_left]
  · simp only [same, if_false, false_and, List.filterMap_nil, List.not_mem_nil]

namespace Deed

theorem of?_eq_told {exchange : Services.Exchange} {envelope : Envelope} {taken : Bool}
    (is : of? exchange = some (.told envelope taken)) : ∃ answer : Except ServiceFault Unit,
      exchange = ⟨.records (.send envelope), answer⟩ ∧ answer.toBool = taken := by
  obtain ⟨c, answer⟩ := exchange
  cases c with
  | records c =>
    cases c with
    | send other => cases is; exact ⟨answer, rfl, rfl⟩
    | updateJob job =>
      match answer with
      | .error _ | .ok false => cases is
      | .ok true => cases finished : job.isTerminal <;> simp [of?, ofRecord?, finished] at is
    | _ => cases is
  | publish platform context => cases answer <;> cases is
  | _ => cases is

theorem of?_of_outside {exchange : Services.Exchange} (outside : ∀ c, exchange.1 ≠ .records c) :
    ∃ result, of? exchange = some (.asked result) := by
  obtain ⟨c, answer⟩ := exchange
  cases c with
  | records c => exact absurd rfl (outside c)
  | publish platform context => cases answer <;> exact ⟨_, rfl⟩
  | _ => exact ⟨none, rfl⟩

theorem of?_eq_result {exchange : Services.Exchange} {result : PublishResult}
    (is : of? exchange = some (.asked (some result))) :
    ∃ publisher context, exchange = ⟨.publish publisher context, .ok result⟩ := by
  obtain ⟨c, answer⟩ := exchange
  cases c with
  | records c =>
    cases c with
    | updateJob job =>
      match answer with
      | .error _ | .ok false => cases is
      | .ok true => cases finished : job.isTerminal <;> simp [of?, ofRecord?, finished] at is
    | _ => cases is
  | publish platform context =>
    cases answer with
    | ok value => cases is; exact ⟨platform, context, rfl⟩
    | error _ => cases is
  | _ => cases is

theorem of?_eq_ended {exchange : Services.Exchange} {job : Job}
    (is : of? exchange = some (.ended job)) :
    exchange = ⟨.records (.updateJob job), .ok true⟩ ∧ job.isTerminal = true := by
  obtain ⟨c, answer⟩ := exchange
  cases c with
  | records c =>
    cases c with
    | updateJob other =>
      match answer with
      | .error _ | .ok false => cases is
      | .ok true =>
        cases finished : other.isTerminal
        · simp [of?, ofRecord?, finished] at is
        · obtain rfl : other = job := by simpa [of?, ofRecord?, finished] using is
          exact ⟨rfl, finished⟩
    | _ => cases is
  | publish platform context => cases answer <;> cases is
  | _ => cases is

end Deed

theorem OfficeLog.ended_mem_deeds {log : OfficeLog} {i : Nat} {job : Job} :
    .ended job ∈ log.deeds i ↔
      ⟨.records (.updateJob job), .ok true⟩ ∈ log.of i ∧ job.isTerminal = true := by
  constructor
  · intro ended
    obtain ⟨exchange, member, is⟩ := List.mem_filterMap.1 ended
    obtain ⟨rfl, finished⟩ := Deed.of?_eq_ended is
    exact ⟨member, finished⟩
  · rintro ⟨member, finished⟩
    exact List.mem_filterMap.2 ⟨_, member, by simp [Deed.of?, Deed.ofRecord?, finished]⟩

/-- Nothing was done but jobs ended. -/
def OnlyEnds (deeds : List Deed) : Prop := ∀ deed ∈ deeds, ∃ job, deed = .ended job

theorem Moves.onlyEnds {α σ : Type} {moved? : α → Option Job} {deeds : List Deed}
    {stand : Stand (Except PublishError α)} {s : σ} (moves : Moves moved? [] deeds stand s) :
    OnlyEnds deeds := by
  have none : deeds = [] → OnlyEnds deeds := by
    rintro rfl
    simp [OnlyEnds]
  match stand with
  | .underway | .overflown | .ended (.error _) => exact none moves
  | .ended (.ok answer) =>
    obtain rfl : deeds = (moved? answer).toList.map Deed.ended := moves
    cases moved? answer <;> simp [OnlyEnds]

/-- What the program of a task shows: an execution its course, and any other task at most that it
ended a job. -/
def Task.Shows (task : Task) (s : Stores) (deeds : List Deed)
    (stand : Stand (Except PublishError Reply)) : Prop :=
  match task with
  | .execute .. => ∃ earlier, stand = earlier.map (Except.map .executed) ∧ Course s deeds earlier
  | _ => OnlyEnds deeds

namespace Task

open Syndication.Action

variable {s : Stores} {anyRead : Prop} {α : Type}

theorem onlyEnds_of_work {work : Action Records α} {f : α → Action Services Reply}
    (does : work.Does (Discipline.bookkeeping anyRead).scene Deed.ofRecord?
      (fun deeds _ _ => OnlyEnds deeds) [] s)
    (replies : ∀ value, ∃ reply, f value = pure reply) :
    (work.toServices >>= f).Does (Discipline.publishing anyRead).scene Deed.of?
      (fun deeds _ _ => OnlyEnds deeds) [] s := by
  refine does.toServices.bind (fun _ _ _ _ _ only => only) fun deeds value t only => ?_
  obtain ⟨reply, same⟩ := replies value
  rw [same]
  exact .pure only

theorem onlyEnds_of_silent {work : Action Records α}
    (silent : work.CallsOnly RecordCall.IsSilent) :
    work.Does (Discipline.bookkeeping anyRead).scene Deed.ofRecord?
      (fun deeds _ _ => OnlyEnds deeds) [] s := by
  refine (Ledger.unseen_of_silent silent).weaken fun deeds _ _ same => ?_
  subst same
  simp [OnlyEnds]

theorem shows (sound : s.Sound) (task : Task) : task.action.Does task.discipline.scene Deed.of?
    (fun deeds stand t => task.Shows t deeds stand) [] s := by
  cases task with
  | execute engine request =>
    refine (Engine.execute_does sound engine request).bind (fun deeds stand now t broken is => ?_)
      fun deeds execution t is => ?_
    · cases broken <;> exact ⟨_, rfl, is⟩
    · exact .pure ⟨_, rfl, is⟩
  | openJob budget request =>
    exact onlyEnds_of_work (onlyEnds_of_silent (Ledger.openJob_silent budget request))
      fun _ => ⟨_, rfl⟩
  | start job =>
    exact onlyEnds_of_work (onlyEnds_of_silent (Ledger.start_silent job)) fun _ => ⟨_, rfl⟩
  | succeed job result =>
    exact onlyEnds_of_work ((Ledger.succeed_does job result).weaken fun _ _ _ => Moves.onlyEnds)
      fun _ => ⟨_, rfl⟩
  | fail job message =>
    exact onlyEnds_of_work ((Ledger.fail_does job message).weaken fun _ _ _ => Moves.onlyEnds)
      fun _ => ⟨_, rfl⟩
  | postOf job =>
    exact onlyEnds_of_work (onlyEnds_of_silent (Ledger.postOf_silent job)) fun _ => ⟨_, rfl⟩

end Task

namespace Office

variable {log : OfficeLog} {office : Office}

/-- An errand goes on among the others: the office was sound where it began, and what it has come
to is what its calls have made of it. -/
theorem Runs.goes (reached : Runs {} log office) {i : Nat} {errand : Errand}
    (here : office.errands[i]? = some errand) : ∃ s t : Stores, s.Sound ∧
      errand.task.action.run.Goes errand.task.discipline.scene s (log.of i) errand.rest t ∧
        t.Later office.stores := by
  induction reached generalizing errand with
  | refl => simp at here
  | @add log office task reached _ ih =>
    by_cases old : i < office.errands.length
    · refine ih ?_
      rwa [Office.add, List.getElem?_append_left old] at here
    · -- the new errand has the next number, and no call in the log has it
      rw [Office.add, List.getElem?_append_right (by omega)] at here
      obtain rfl := List.mem_singleton.1 (List.mem_of_getElem? here)
      rw [reached.no_calls old]
      exact ⟨_, _, (reached.sound .empty).1.stores, .stop _ _, .refl _⟩
  | @call log office j task c next answer stores reached there answered ih =>
    have sound := (reached.sound .empty).1
    obtain ⟨_, later, _⟩ := sound.call there answered
    obtain ⟨bound, _⟩ := List.getElem?_eq_some_iff.1 there
    by_cases same : j = i
    · subst same
      obtain rfl : ⟨task, next answer⟩ = errand := by
        simpa [goOn, List.getElem?_set_self bound] using here
      obtain ⟨s, t, soundS, goes, onward⟩ := ih there
      refine ⟨s, stores, soundS, ?_, .refl _⟩
      simpa [OfficeLog.of] using goes.snoc ⟨onward, sound.stores⟩ answered
    · rw [goOn, List.getElem?_set_ne same] at here
      obtain ⟨s, t, soundS, goes, onward⟩ := ih here
      refine ⟨s, t, soundS, ?_, onward.trans later⟩
      simpa [OfficeLog.of, same] using goes

theorem Runs.course (reached : Runs {} log office) {i : Nat} {engine : Engine}
    {request : Request} {rest : Program Services (Except PublishError Reply)}
    (here : office.errands[i]? = some ⟨.execute engine request, rest⟩) :
    ∃ stand, rest.stand = stand.map (Except.map .executed) ∧
      Course office.stores (log.deeds i) stand := by
  obtain ⟨s, t, sound, goes, later⟩ := reached.goes here
  obtain ⟨stand, same, course⟩ := ((Task.execute engine request).shows sound).does.goes goes
  exact ⟨stand, same, course.later later⟩

theorem executed_iff {rest : Program Services (Except PublishError Reply)}
    {stand : Stand (Except PublishError Execution)} {execution : Execution}
    (same : rest.stand = stand.map (Except.map .executed)) :
    rest = .done (.ok (.executed execution)) ↔ stand = .ended (.ok execution) := by
  rw [← Program.stand_eq_ended, same]
  match stand with
  | .underway | .overflown | .ended (.error _) => simp [Stand.map, Except.map]
  | .ended (.ok value) => simp [Stand.map, Except.map]

/-- Only an execution tells the transport anything. -/
theorem Runs.told_by_execution (reached : Runs {} log office) {i : Nat} {envelope : Envelope}
    {taken : Bool} (told : .told envelope taken ∈ log.deeds i) : ∃ engine request rest,
      office.errands[i]? = some ⟨.execute engine request, rest⟩ := by
  obtain ⟨exchange, member, is⟩ := List.mem_filterMap.1 told
  obtain ⟨⟨task, rest⟩, here, _⟩ := reached.answered .empty (OfficeLog.mem_of.1 member)
  obtain ⟨s, t, sound, goes, _⟩ := reached.goes here
  have shows := (task.shows sound).does.goes goes
  cases task with
  | execute engine request => exact ⟨engine, request, rest, here⟩
  | _ =>
    obtain ⟨job, impossible⟩ := shows _ told
    cases impossible

/-- A job that was ended is stored as it was when it ended. -/
theorem Runs.ended_stored (reached : Runs {} log office) {i : Nat} {job : Job}
    (ended : .ended job ∈ log.deeds i) :
    office.stores.jobs.find? job.id = some job ∧ job.isTerminal = true := by
  obtain ⟨member, finished⟩ := OfficeLog.ended_mem_deeds.1 ended
  obtain ⟨_, _, s, t, _, _, _, ⟨jobs, updated, rfl⟩, later⟩ :=
    reached.answered .empty (OfficeLog.mem_of.1 member)
  exact ⟨later.finished (JobStore.find?_of_update updated) finished, finished⟩

/-- One errand only ends a job. -/
theorem Runs.ended_once (reached : Runs {} log office) {i j : Nat} {job other : Job}
    (first : .ended job ∈ log.deeds i) (second : .ended other ∈ log.deeds j)
    (same : other.id = job.id) : i = j := by
  induction reached with
  | refl => cases first
  | add task _ _ ih => exact ih first second
  | @call log office k task c next answer stores reached here answered ih =>
    -- what was ended before this call is stored and finished, so that this call cannot end it
    have refused {i : Nat} {old new : Job} (ended : .ended old ∈ log.deeds i)
        (same : old.id = new.id) : Deed.of? ⟨c, answer⟩ ≠ some (.ended new) := by
      intro is
      obtain ⟨stored, finished⟩ := reached.ended_stored ended
      obtain ⟨call, _⟩ := Deed.of?_eq_ended is
      cases call
      obtain ⟨jobs, updated, _⟩ := answered
      obtain ⟨row, found, ⟨impossible, _⟩ | ⟨_, pending, _⟩⟩ := JobStore.update_eq_ok updated
      · cases impossible
      · rw [← same, stored] at found
        cases found
        rw [finished] at pending
        cases pending
    rcases OfficeLog.mem_deeds_snoc.1 first with first | ⟨atFirst, new⟩
    · rcases OfficeLog.mem_deeds_snoc.1 second with second | ⟨_, new⟩
      · exact ih first second
      · exact absurd new (refused first same.symm)
    · rcases OfficeLog.mem_deeds_snoc.1 second with second | ⟨atSecond, _⟩
      · exact absurd new (refused second same)
      · exact atFirst.symm.trans atSecond

end Office

end Syndication
