import Syndication.Proofs.Bookings
import Syndication.Proofs.Stamps

namespace Syndication

/-- A row was there before, or it was written by the call. -/
theorem Stores.Answers.row_origin {s t : Stores} {c : RecordCall} {a : c.Answer}
    (answered : s.Answers c a t) {row : Job} (member : row ∈ t.jobs.rows) :
    row ∈ s.jobs.rows ∨ c = .insertJob row ∨ c = .updateJob row := by
  cases answered.writes with
  | nothing | insertPost _ => exact .inl member
  | @insertJob job jobs inserted =>
    have appended := (JobStore.insert_eq_ok inserted).1
    rcases (by simpa [appended] using member : row ∈ s.jobs.rows ∨ row = job) with old | rfl
    · exact .inl old
    · exact .inr (.inl rfl)
  | updateJob updated =>
    obtain ⟨_, _, ⟨_, _, rfl⟩ | ⟨_, _, replaced⟩⟩ := JobStore.update_eq_ok updated
    · exact .inl member
    · rcases JobStore.mem_replace (replaced ▸ member) with rfl | old
      · exact .inr (.inr rfl)
      · exact .inl old

/-- The reading of the clock that an exchange is. -/
def Records.reading? : Records.Exchange → Option Timestamp
  | ⟨.now, time⟩ => some time
  | _ => none

/-- The stores, and the readings of the clock. -/
structure Timed where
  stores : Stores := {}
  readings : List Timestamp := []

namespace Timed

/-- What the records may answer when the clock never goes back. -/
def Answers : Surroundings Records Timed := fun s c a t =>
  s.stores.Answers c a t.stores ∧
    t.readings = s.readings ++ (Records.reading? ⟨c, a⟩).toList ∧
    ∀ time, Records.reading? ⟨c, a⟩ = some time → ∀ reading ∈ s.readings, reading ≤ time

def Sound (s : Timed) : Prop := ∀ row ∈ s.stores.jobs.rows, row.IsTimely s.readings

/-- The jobs that a program writes are timely. -/
def Permits (s : Timed) : RecordCall → Prop
  | .insertJob job | .updateJob job => job.IsTimely s.readings
  | _ => True

theorem Answers.kept {s t : Timed} {c : RecordCall} {a : c.Answer} (answered : Answers s c a t) :
    s.readings ⊆ t.readings := by
  rw [answered.2.1]
  exact List.subset_append_left ..

theorem Sound.answers {s t : Timed} {c : RecordCall} {a : c.Answer} (sound : s.Sound)
    (permitted : s.Permits c) (answered : Answers s c a t) : t.Sound := by
  intro row member
  rcases answered.1.row_origin member with old | rfl | rfl
  · exact (sound row old).mono answered.kept
  · exact Job.IsTimely.mono permitted answered.kept
  · exact Job.IsTimely.mono permitted answered.kept

end Timed

/-- How programs on the records share their stores while the clock goes on. -/
def Discipline.timekeeping : Discipline Records Timed where
  around := Timed.Answers
  sound := Timed.Sound
  rely s t := s.readings ⊆ t.readings
  permits := Timed.Permits
  refl s := List.Subset.refl s.readings
  trans := List.Subset.trans
  keeps := Timed.Sound.answers
  moves _ _ answered := answered.kept

/-- A call that writes no job. -/
def RecordCall.KeepsJobs : RecordCall → Prop
  | .insertJob _ | .updateJob _ => False
  | _ => True

theorem RecordCall.IsTelling.keepsJobs {c : RecordCall} (telling : c.IsTelling) : c.KeepsJobs := by
  cases c with
  | now | freshId | send _ => trivial
  | _ => cases telling

theorem RecordCall.KeepsJobs.permitted {c : RecordCall} (keeps : c.KeepsJobs) (s : Timed) :
    s.Permits c := by
  cases c with
  | insertJob _ | updateJob _ => cases keeps
  | _ => trivial

variable {s : Timed}

namespace Records

theorem now_timely : now.Meets .timekeeping
    (fun time t => time ∈ t.readings ∧ ∀ reading ∈ s.readings, reading ≤ time) s := by
  intro t kept _
  refine ⟨trivial, fun time u answered => ?_⟩
  obtain ⟨_, readings, inOrder⟩ := answered
  have read : time ∈ u.readings := by
    rw [readings]
    exact List.mem_append_right _ (List.mem_singleton_self time)
  exact ⟨read, fun reading member => inOrder time rfl reading (kept member)⟩

theorem freshId_timely : freshId.Meets .timekeeping (fun _ _ => True) s :=
  fun _ _ _ => ⟨trivial, fun _ _ _ => trivial⟩

theorem findJob_timely (id : JobId) : (Action.persisted (findJob id)).Ensures .timekeeping
    (fun found t => ∀ job, found = some job → job.IsTimely t.readings) s := by
  refine .persisted fun t _ sound => ⟨trivial, ?_⟩
  rintro _ u answered found rfl job rfl
  have permitted : t.Permits (.findJob id) := trivial
  have soundU := Timed.Sound.answers sound permitted answered
  obtain ⟨⟨found, same⟩, _⟩ := answered
  refine soundU job ?_
  rw [same]
  exact JobStore.mem_of_find? found.symm

theorem findJobByKey_timely (key : String) :
    (Action.persisted (findJobByKey key)).Ensures .timekeeping
      (fun found t => ∀ job, found = some job → job.IsTimely t.readings) s := by
  refine .persisted fun t _ sound => ⟨trivial, ?_⟩
  rintro _ u answered found rfl job rfl
  have permitted : t.Permits (.findJobByKey key) := trivial
  have soundU := Timed.Sound.answers sound permitted answered
  obtain ⟨⟨found, same⟩, _⟩ := answered
  refine soundU job ?_
  rw [same]
  exact List.mem_of_find?_eq_some found.symm

theorem insertJob_timely {job : Job} (timely : job.IsTimely s.readings) :
    (insertJob job).Meets .timekeeping (fun _ t => job.IsTimely t.readings) s :=
  fun _ kept _ => ⟨timely.mono kept, fun _ _ answered => (timely.mono kept).mono answered.kept⟩

theorem updateJob_timely {job : Job} (timely : job.IsTimely s.readings) :
    (Action.persisted (updateJob job)).Ensures .timekeeping
      (fun _ t => job.IsTimely t.readings) s :=
  .persisted fun _ kept _ =>
    ⟨timely.mono kept, fun _ _ answered _ _ => (timely.mono kept).mono answered.kept⟩

end Records

namespace Ledger

open Syndication.Action Program

theorem stored_timely (sound : s.Sound) (id : JobId) :
    (stored id).Ensures .timekeeping (fun job t => job.IsTimely t.readings) s := by
  unfold stored
  refine (Records.findJob_timely id).bind sound fun found t _ _ timely => ?_
  cases found with
  | some job => exact .pure (timely job rfl)
  | none => exact .throw

theorem yieldTo_timely (sound : s.Sound) (request : Request) (key : String)
    (fault : ServiceFault) : (yieldTo request key fault).Ensures .timekeeping
      (fun job t => job.IsTimely t.readings) s := by
  unfold yieldTo
  refine (Records.findJobByKey_timely key).bind sound fun found t _ _ timely => ?_
  cases found with
  | some winner =>
    refine .ofExcept fun job reused => ?_
    rw [(reuse_eq_ok reused).1]
    exact timely winner rfl
  | none => exact .throw

theorem insertNew_timely (sound : s.Sound) (budget : UInt32) (request : Request) :
    (insertNew budget request).Ensures .timekeeping (fun job t => job.IsTimely t.readings) s := by
  unfold insertNew
  refine (Ensures.always Records.freshId_timely).bind sound fun id t soundT _ _ => ?_
  refine (Ensures.always Records.now_timely).bind soundT fun now u soundU _ read => ?_
  have timely : (Job.ofRequest request budget ⟨id⟩ now).IsTimely u.readings :=
    ⟨Job.isRegular_ofRequest .., read.1⟩
  refine (Ensures.always (Records.insertJob_timely timely)).bind soundU
    fun answer v soundV _ timely => ?_
  cases answer with
  | ok _ => exact .pure timely
  | error fault =>
    simp only
    split
    · split
      · exact yieldTo_timely soundV request _ fault
      · exact .throw
    · exact .throw

theorem openJob_timely (sound : s.Sound) (budget : UInt32) (request : Request) :
    (openJob budget request).Ensures .timekeeping (fun job t => job.IsTimely t.readings) s := by
  unfold openJob
  refine (Ensures.ofExcept fun _ _ => trivial).bind sound fun _ t soundT _ (_ : True) => ?_
  split
  · exact insertNew_timely soundT budget request
  · refine (Records.findJobByKey_timely _).bind soundT fun found u soundU _ timely => ?_
    cases found with
    | some existing =>
      refine .ofExcept fun job reused => ?_
      rw [(reuse_eq_ok reused).1]
      exact timely existing rfl
    | none => exact insertNew_timely soundU budget request

theorem recordPost_keepsJobs (post : Post) : (recordPost post).CallsOnly RecordCall.KeepsJobs :=
  recordPost_only trivial trivial

theorem postOf_keepsJobs (job : Job) : (postOf job).CallsOnly RecordCall.KeepsJobs :=
  .persisted (Yields.ask trivial)

variable {job : Job} (timely : job.IsTimely s.readings)
include timely

theorem start_timely (sound : s.Sound) :
    (start job).Ensures .timekeeping (fun job t => job.IsTimely t.readings) s := by
  unfold start
  refine (Ensures.always Records.now_timely).bind sound fun now t soundT kept read => ?_
  have marked := timely.markStarted read.2 kept read.1
  simp only
  split
  · refine (Records.updateJob_timely marked).bind soundT fun written u soundU _ marked => ?_
    cases written with
    | true => exact .pure marked
    | false => exact stored_timely soundU job.id
  · exact .pure (timely.mono kept)

theorem finish_timely (sound : s.Sound) (post : Post) : (finish job post).Ensures .timekeeping
    (fun answer t => answer.1.IsTimely t.readings) s := by
  unfold finish
  have record := (recordPost_keepsJobs post).ensures .timekeeping (fun _ keeps => keeps.permitted) s
  refine record.bind sound fun _ t soundT kept _ => ?_
  refine (Records.updateJob_timely (timely.mono kept)).bind soundT fun written u soundU _ held => ?_
  cases written with
  | true => exact .pure held
  | false => exact (stored_timely soundU job.id).bind soundU fun _ _ _ _ held => .pure held

theorem succeed_timely (sound : s.Sound) (result : PublishResult) :
    (succeed job result).Ensures .timekeeping
      (fun answer t => answer.1.IsTimely t.readings) s := by
  unfold succeed
  split
  · refine (Ensures.always Records.now_timely).bind sound fun now t soundT kept read => ?_
    have marked := timely.markSuccess read.2 kept read.1
    have timely := timely.mono kept
    simp only
    split
    · refine (stored_timely soundT job.id).bind soundT fun row u soundU kept held => ?_
      split
      · exact .pure held
      · refine (Ensures.always Records.freshId_timely).bind soundU fun id v soundV keptV _ => ?_
        split
        · exact finish_timely ((marked.mono kept).mono keptV) soundV _
        · exact .pure ((timely.mono kept).mono keptV)
    · exact .pure timely
  · exact .throw

theorem fail_timely (sound : s.Sound) (message : String) :
    (fail job message).Ensures .timekeeping
      (fun answer t => answer.1.IsTimely t.readings) s := by
  unfold fail
  refine (Ensures.always Records.now_timely).bind sound fun now t soundT kept read => ?_
  have marked := timely.markFailure read.2 kept read.1 message
  simp only
  split
  · refine (Records.updateJob_timely marked).bind soundT fun written u soundU _ marked => ?_
    cases written with
    | true => exact .pure marked
    | false => exact (stored_timely soundU job.id).bind soundU fun _ _ _ _ held => .pure held
  · exact .pure (timely.mono kept)

end Ledger

namespace Engine

open Syndication.Action Program

/-- Calls that write no job leave what is timely as it is. -/
theorem idle_timely {α : Type} {x : Action Services α}
    (only : x.CallsOnly (ServiceCall.Within RecordCall.KeepsJobs)) (s : Timed) :
    x.Ensures Discipline.timekeeping.withServices (fun _ _ => True) s := by
  refine only.ensures _ (fun c keeps t => ?_) s
  cases c with
  | records c => exact RecordCall.KeepsJobs.permitted keeps t
  | _ => trivial

theorem announced_timely {α : Type} {announcement : Action Records α}
    (telling : announcement.CallsOnly RecordCall.IsTelling) (s : Timed) :
    (tryAnnounce announcement).Ensures Discipline.timekeeping.withServices (fun _ _ => True) s :=
  idle_timely (tryAnnounce_only (telling.mono fun _ => (·.keepsJobs))) s

variable {job : Job}

theorem reportStored_timely (timely : job.IsTimely s.readings) (sound : s.Sound) :
    (reportStored job).Ensures Discipline.timekeeping.withServices
      (fun execution t => execution.job.IsTimely t.readings) s := by
  unfold reportStored
  split
  · refine (idle_timely (Ledger.postOf_keepsJobs job).toServices s).bind sound
      fun found t soundT kept _ => ?_
    cases found with
    | none => exact .pure (timely.mono kept)
    | some post =>
      refine (announced_timely (Announcement.succeeded_telling job post) t).bind soundT
        fun _ u _ keptU _ => ?_
      exact .pure ((timely.mono kept).mono keptU)
  · refine (announced_timely (Announcement.failed_telling job _ _) s).bind sound
      fun _ t _ kept _ => ?_
    exact .pure (timely.mono kept)
  · exact .pure timely

theorem completeSuccess_timely (timely : job.IsTimely s.readings) (sound : s.Sound)
    (result : PublishResult) :
    (completeSuccess job result).Ensures Discipline.timekeeping.withServices
      (fun execution t => execution.job.IsTimely t.readings) s := by
  unfold completeSuccess
  refine (Ledger.succeed_timely timely sound result).toServices.bind sound
    fun answer t soundT _ held => ?_
  obtain ⟨done, post⟩ := answer
  cases post with
  | none => exact reportStored_timely held soundT
  | some post =>
    refine (announced_timely (Announcement.succeeded_telling done post) t).bind soundT
      fun _ u _ kept _ => ?_
    exact .pure (Job.IsTimely.mono held kept)

theorem completeFailure_timely (timely : job.IsTimely s.readings) (sound : s.Sound)
    (kind : FailureKind) (message : String) :
    (completeFailure job kind message).Ensures Discipline.timekeeping.withServices
      (fun execution t => execution.job.IsTimely t.readings) s := by
  unfold completeFailure
  refine (Ledger.fail_timely timely sound _).toServices.bind sound fun answer t soundT _ held => ?_
  obtain ⟨done, isNew⟩ := answer
  cases isNew with
  | false => exact reportStored_timely held soundT
  | true =>
    refine (announced_timely (Announcement.failed_telling done kind _) t).bind soundT
      fun _ u soundU kept _ => ?_
    have held : done.IsTimely u.readings := Job.IsTimely.mono held kept
    split
    · refine (announced_timely (Announcement.retryRequested_telling done _) u).bind soundU
        fun _ v _ kept _ => ?_
      exact .pure (held.mono kept)
    · exact .pure held

theorem complete_timely (timely : job.IsTimely s.readings) (sound : s.Sound)
    (outcome : Except PublishError PublishResult) :
    (complete job outcome).Ensures Discipline.timekeeping.withServices
      (fun execution t => execution.job.IsTimely t.readings) s := by
  cases outcome with
  | ok result =>
    simp only [complete]
    split
    · exact completeSuccess_timely timely sound result
    · exact completeFailure_timely timely sound _ _
  | error error => exact completeFailure_timely timely sound _ _

theorem attempt_keepsJobs (engine : Engine) (job : Job) (request : Request) :
    (engine.attempt job request).CallsOnly (ServiceCall.Within RecordCall.KeepsJobs) := by
  refine (engine.attempt_outside job request).mono fun c outside => ?_
  cases c with
  | records c =>
    cases c with
    | now => trivial
    | _ => cases outside
  | _ => trivial

theorem carryOut_timely (timely : job.IsTimely s.readings) (sound : s.Sound) (engine : Engine)
    (request : Request) : (engine.carryOut request job).Ensures Discipline.timekeeping.withServices
      (fun execution t => execution.job.IsTimely t.readings) s := by
  unfold carryOut
  split
  · exact .pure timely
  · refine (Ledger.start_timely timely sound).toServices.bind sound fun row t soundT _ held => ?_
    split
    · exact .pure held
    · have telling := (Announcement.started_telling row).mono fun _ => (·.keepsJobs)
      refine (idle_timely telling.toServices t).bind soundT
        fun _ u soundU kept _ => ?_
      have held : row.IsTimely u.readings := Job.IsTimely.mono held kept
      have attempt := (idle_timely (engine.attempt_keepsJobs row request) u).meets
      refine (Ensures.always (attempt.weaken fun _ _ _ => trivial)).bind soundU
        fun outcome v soundV kept (_ : True) => ?_
      exact complete_timely (held.mono kept) soundV outcome

theorem execute_timely (sound : s.Sound) (engine : Engine) (request : Request) :
    (engine.execute request).Ensures Discipline.timekeeping.withServices
      (fun execution t => execution.job.IsTimely t.readings) s := by
  rw [execute_eq]
  refine (Ledger.openJob_timely sound engine.retryBudget request).toServices.bind sound
    fun job t soundT _ held => ?_
  exact carryOut_timely held soundT engine request

end Engine

end Syndication
