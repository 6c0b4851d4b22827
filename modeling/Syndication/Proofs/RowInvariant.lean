import Syndication.Proofs.StartStamp
import Syndication.Proofs.Timekeeping

namespace Syndication

namespace Task

/-- A task that is begun on a timely copy writes timely jobs only, and hands out such a copy. -/
theorem timely {s : Timed} (sound : s.Sound) (task : Task)
    (begun : ∀ job, task.job? = some job → job.IsTimely s.readings) :
    task.action.Ensures Discipline.timekeeping.withServices
      (fun reply t => ∀ job, reply.job? = some job → job.IsTimely t.readings) s := by
  cases task with
  | execute engine request =>
    refine (Engine.execute_timely sound engine request).bind sound fun execution t _ _ held => ?_
    refine .pure ?_
    rintro _ ⟨⟩
    exact held
  | openJob budget request =>
    refine (Ledger.openJob_timely sound budget request).toServices.bind sound
      fun job t _ _ held => ?_
    refine .pure ?_
    rintro _ ⟨⟩
    exact held
  | start job =>
    refine (Ledger.start_timely (begun job rfl) sound).toServices.bind sound
      fun job t _ _ held => ?_
    refine .pure ?_
    rintro _ ⟨⟩
    exact held
  | succeed job result =>
    refine (Ledger.succeed_timely (begun job rfl) sound result).toServices.bind sound
      fun answer t _ _ held => ?_
    refine .pure ?_
    rintro _ ⟨⟩
    exact held
  | fail job message =>
    refine (Ledger.fail_timely (begun job rfl) sound message).toServices.bind sound
      fun answer t _ _ held => ?_
    refine .pure ?_
    rintro _ ⟨⟩
    exact held
  | postOf job =>
    refine (Engine.idle_timely (Ledger.postOf_keepsJobs job).toServices s).bind sound
      fun post t _ _ _ => ?_
    exact .pure (by simp [Reply.job?])

end Task

namespace Services

/-- The reading of the clock that an exchange is. -/
def reading? : Services.Exchange → Option Timestamp
  | ⟨.records c, answer⟩ => Records.reading? ⟨c, answer⟩
  | _ => none

end Services

/-- The readings of the clock, in the order in which they were taken. -/
def OfficeLog.readings (log : OfficeLog) : List Timestamp :=
  log.filterMap fun entry => Services.reading? entry.2

namespace Stores

/-- A row is for the work of a row that was there before, or of a job that is inserted by the
call. -/
theorem Replies.work_origin {anyRead : Prop} {s t : Stores} {c : ServiceCall} {answer : c.Answer}
    (permitted : (Discipline.publishing anyRead).permits s c) (answered : s.Replies c answer t)
    {row : Job} (member : row ∈ t.jobs.rows) :
    (∃ old ∈ s.jobs.rows, old.work = row.work) ∨
      (⟨c, answer⟩ : Services.Exchange) = ⟨.records (.insertJob row.work), .ok ()⟩ := by
  cases c with
  | records c =>
    cases Answers.writes answered with
    | nothing | insertPost _ => exact .inl ⟨row, member, rfl⟩
    | @insertJob job jobs inserted =>
      have appended := (JobStore.insert_eq_ok inserted).1
      rcases (by simpa [appended] using member : row ∈ s.jobs.rows ∨ row = job) with old | rfl
      · exact .inl ⟨row, old, rfl⟩
      · have fresh : row.IsFresh := permitted
        rw [fresh.work]
        exact .inr rfl
    | updateJob updated =>
      obtain ⟨⟨old, found, same⟩, _⟩ := permitted
      obtain ⟨_, _, ⟨_, _, rfl⟩ | ⟨_, _, replaced⟩⟩ := JobStore.update_eq_ok updated
      · exact .inl ⟨row, member, rfl⟩
      · rcases JobStore.mem_replace (replaced ▸ member) with rfl | kept
        · exact .inl ⟨old, JobStore.mem_of_find? found, same⟩
        · exact .inl ⟨row, kept, rfl⟩
  | _ => obtain rfl := answered; exact .inl ⟨row, member, rfl⟩

end Stores

namespace Office

variable {log : OfficeLog} {office : Office}

/-- Every row is for the work of a job that was inserted. -/
theorem Runs.work_origin (reached : Runs {} log office) {row : Job}
    (member : row ∈ office.stores.jobs.rows) :
    ∃ i, (i, ⟨.records (.insertJob row.work), .ok ()⟩) ∈ log := by
  induction reached generalizing row with
  | refl => cases member
  | add task _ _ ih => exact ih member
  | @call log b i task c next answer stores before here answered ih =>
    obtain ⟨permitted, _⟩ := (before.sound .empty).1.call here answered
    rcases answered.work_origin permitted member with ⟨old, inRows, same⟩ | insertion
    · obtain ⟨j, inserted⟩ := ih inRows
      rw [same] at inserted
      exact ⟨j, List.mem_append_left _ inserted⟩
    · refine ⟨i, List.mem_append_right _ ?_⟩
      rw [insertion]
      exact List.mem_singleton_self _

/-- After these readings of the clock all rows are timely, and what is left of every errand keeps
them so. -/
structure IsTimely (office : Office) (readings : List Timestamp) : Prop where
  rows : Timed.Sound ⟨office.stores, readings⟩
  errands : ∀ errand ∈ office.errands, errand.rest.Meets Discipline.timekeeping.withServices
    (fun outcome t => ∀ reply, outcome = .ok reply →
      ∀ job, reply.job? = some job → job.IsTimely t.readings) ⟨office.stores, readings⟩

theorem IsTimely.add {readings : List Timestamp} (timely : office.IsTimely readings) (task : Task)
    (handedOut : ∀ job, task.job? = some job → office.HandsOut job) :
    (office.add task).IsTimely readings where
  rows := timely.rows
  errands errand member := by
    rcases List.mem_append.1 member with old | new
    · exact timely.errands errand old
    · obtain rfl := List.mem_singleton.1 new
      refine (task.timely timely.rows fun job has => ?_).meets
      obtain ⟨earlier, inErrands, reply, done, replied⟩ := handedOut job has
      have held := timely.errands earlier inErrands
      rw [done] at held
      exact held reply rfl job replied

/-- A call whose reading of the clock, if it is one, is not before the others leaves everything
timely. -/
theorem IsTimely.call {readings : List Timestamp} (timely : office.IsTimely readings) {i : Nat}
    {task : Task} {c : ServiceCall} {next : c.Answer → Program Services (Except PublishError Reply)}
    {answer : c.Answer} {stores : Stores} (here : office.errands[i]? = some ⟨task, .call c next⟩)
    (answered : office.stores.Replies c answer stores)
    (clock : (readings ++ (Services.reading? ⟨c, answer⟩).toList).Pairwise (· ≤ ·)) :
    (office.goOn i ⟨task, next answer⟩ stores).IsTimely
      (readings ++ (Services.reading? ⟨c, answer⟩).toList) := by
  have around : Discipline.timekeeping.withServices.around ⟨office.stores, readings⟩ c answer
      ⟨stores, readings ++ (Services.reading? ⟨c, answer⟩).toList⟩ := by
    cases c with
    | records c =>
      refine ⟨answered, rfl, fun time is reading member => ?_⟩
      have last : time ∈ (Services.reading? ⟨.records c, answer⟩).toList := by
        simpa [Services.reading?] using is
      exact (List.pairwise_append.1 clock).2.2 reading member time last
    | _ =>
      obtain rfl := answered
      simp [Services.reading?, Discipline.withServices, Surroundings.withServices]
  have member := List.mem_of_getElem? here
  have rely := Discipline.timekeeping.withServices.refl ⟨office.stores, readings⟩
  obtain ⟨permitted, goesOn⟩ := timely.errands _ member _ rely timely.rows
  refine ⟨Discipline.timekeeping.withServices.keeps timely.rows permitted around, ?_⟩
  intro errand member
  rcases List.mem_or_eq_of_mem_set member with other | rfl
  · refine (timely.errands errand other).rely ?_
      (Discipline.timekeeping.withServices.moves timely.rows permitted around)
    exact fun outcome {s t} kept held reply is job has => (held reply is job has).mono kept
  · exact goesOn answer _ around

theorem Runs.timely (reached : Runs {} log office) (clock : log.readings.Pairwise (· ≤ ·)) :
    office.IsTimely log.readings := by
  induction reached with
  | refl => exact ⟨by simp [Timed.Sound], by simp⟩
  | add task _ handedOut ih => exact (ih clock).add task handedOut
  | @call log b i task c next answer stores before here answered ih =>
    have snoc : OfficeLog.readings (log ++ [(i, ⟨c, answer⟩)]) =
        log.readings ++ (Services.reading? ⟨c, answer⟩).toList := by
      cases is : Services.reading? ⟨c, answer⟩ <;> simp [OfficeLog.readings, is]
    rw [snoc] at clock ⊢
    exact (ih (List.pairwise_append.1 clock).1).call here answered clock

/-- What holds of every row. Take any run of an office from its beginning in which the clock never
goes back. Every row is found by its own identifier, it is for the work of a job that was inserted,
and its stamps and its message are those that its status calls for, in order. Whatever goes on from
there, the row stays, for the same work, and it does not change any more once it is finished. -/
theorem row_invariant (reached : Runs {} log office) (clock : log.readings.Pairwise (· ≤ ·))
    {row : Job} (member : row ∈ office.stores.jobs.rows) :
    office.stores.jobs.find? row.id = some row ∧
    (∃ i, (i, ⟨.records (.insertJob row.work), .ok ()⟩) ∈ log) ∧ row.IsRegular ∧
    ∀ future later, Runs office future later → ∃ now,
      later.stores.jobs.find? row.id = some now ∧ now.work = row.work ∧
      (row.isTerminal = true → now = row) := by
  have sound := (reached.sound .empty).1
  have found := sound.stores.find?_iff.2 ⟨member, rfl⟩
  refine ⟨found, reached.work_origin member, ((reached.timely clock).rows row member).1, ?_⟩
  intro future later onward
  exact (onward.sound sound).2.row found

end Office

namespace Rehearsal.Cast

def noon : Timestamp := ⟨43200, 0, by decide⟩

/-- A session in which the job is opened and started in the morning, and its copy from before the
start is marked as a failure at noon. -/
def lateFailure : Session :=
  Session.attend { starting with stage := { starting.stage with clock := noon } } (failing opened)

theorem lateFailure_isRun : lateFailure.IsRun := by
  obtain ⟨runs, honest⟩ := starting_isRun
  have waited : Session.IsRun { starting with stage := { starting.stage with clock := noon } } :=
    ⟨runs, honest.plan, honest.alone, honest.scripted⟩
  refine waited.attend _ ?_
  rintro _ ⟨⟩
  exact starting_handsOut.1

end Rehearsal.Cast

namespace Office

open Rehearsal

/-- The row of a job that was marked through a copy from before its start. -/
theorem row_invariant_late : ∃ log office, Runs {} log office ∧
    log.readings = [Cast.morning, Cast.morning, Cast.noon] ∧
    Cast.failed Cast.noon ∈ office.stores.jobs.rows ∧ (Cast.failed Cast.noon).IsRegular ∧
    ∃ i, (i, ⟨.records (.insertJob Cast.opened), .ok ()⟩) ∈ log := by
  have readings : Cast.lateFailure.log.readings = [Cast.morning, Cast.morning, Cast.noon] := by
    decide +kernel
  have clock : Cast.lateFailure.log.readings.Pairwise (· ≤ ·) := by
    rw [readings]
    decide
  have member : Cast.failed Cast.noon ∈ Cast.lateFailure.office.stores.jobs.rows := by
    decide +kernel
  have opened : (Cast.failed Cast.noon).work = Cast.opened := rfl
  obtain ⟨_, inserted, regular, _⟩ := row_invariant Cast.lateFailure_isRun.1 clock member
  rw [opened] at inserted
  exact ⟨_, _, Cast.lateFailure_isRun.1, readings, member, regular, inserted⟩

end Office

end Syndication
