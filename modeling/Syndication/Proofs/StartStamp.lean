import Syndication.Proofs.Bookings
import Syndication.Proofs.Rehearsal

namespace Syndication

namespace Job

/-- The job is the copy with the mark of a start or of an end. -/
def IsMarkOf (job copy : Job) : Prop :=
  ∃ now, job = (copy.markStarted now).1 ∨ job = (copy.markSuccess now).1 ∨
    ∃ message, job = (copy.markFailure message now).1

/-- A mark leaves a start stamp as it is. -/
theorem IsMarkOf.startedAt {job copy : Job} (isMark : job.IsMarkOf copy) {time : Timestamp}
    (stamped : copy.startedAt = some time) : job.startedAt = some time := by
  obtain ⟨now, rfl | rfl | ⟨message, rfl⟩⟩ := isMark
  · simp [markStarted, stamped]
  · unfold markSuccess
    split <;> simp [stamped]
  · unfold markFailure
    split <;> exact stamped

theorem IsMarkOf.id {job copy : Job} (isMark : job.IsMarkOf copy) : job.id = copy.id := by
  obtain ⟨now, rfl | rfl | ⟨message, rfl⟩⟩ := isMark
  · unfold markStarted
    split <;> rfl
  · unfold markSuccess
    split <;> rfl
  · unfold markFailure
    split <;> rfl

end Job

/-- An update by this call puts a mark of the copy, if there is one, in the place of the row. -/
def RecordCall.Marks (copy : Option Job) : RecordCall → Prop
  | .updateJob job => ∃ old, copy = some old ∧ job.IsMarkOf old
  | _ => True

namespace RecordCall

theorem IsOpening.marks {c : RecordCall} (opening : c.IsOpening) (copy : Option Job) :
    c.Marks copy := by
  cases c with
  | updateJob job => cases opening
  | _ => trivial

theorem Starts.marks {copy : Job} {c : RecordCall} (starts : c.Starts copy) :
    c.Marks (some copy) := by
  cases c with
  | updateJob job =>
    obtain ⟨now, marked⟩ := starts
    exact ⟨copy, rfl, now, .inl (by rw [marked])⟩
  | _ => trivial

theorem Succeeds.marks {copy : Job} {c : RecordCall} (succeeds : c.Succeeds copy) :
    c.Marks (some copy) := by
  cases c with
  | updateJob job =>
    obtain ⟨now, marked⟩ := succeeds
    exact ⟨copy, rfl, now, .inr (.inl (by rw [marked]))⟩
  | _ => trivial

theorem Fails.marks {copy : Job} {c : RecordCall} (fails : c.Fails copy) :
    c.Marks (some copy) := by
  cases c with
  | updateJob job =>
    obtain ⟨message, now, marked⟩ := fails
    exact ⟨copy, rfl, now, .inr (.inr ⟨message, by rw [marked]⟩)⟩
  | _ => trivial

end RecordCall

/-- An operation of the ledger writes nothing but marks of the copy that it was given. -/
theorem Task.marks (task : Task) : (∃ engine request, task = .execute engine request) ∨
    task.action.CallsOnly (ServiceCall.Within (RecordCall.Marks task.job?)) := by
  cases task with
  | execute engine request => exact .inl ⟨engine, request, rfl⟩
  | openJob budget request =>
    have only := (Ledger.openJob_opening budget request).mono fun _ is => is.marks none
    exact .inr (.bind only.toServices fun _ => .pure)
  | start job =>
    have only := (Ledger.start_starts job).mono fun _ is => is.marks
    exact .inr (.bind only.toServices fun _ => .pure)
  | succeed job result =>
    have only := (Ledger.succeed_succeeds job result).mono fun _ is => is.marks
    exact .inr (.bind only.toServices fun _ => .pure)
  | fail job message =>
    have only := (Ledger.fail_fails job message).mono fun _ is => is.marks
    exact .inr (.bind only.toServices fun _ => .pure)
  | postOf job =>
    have only : (Ledger.postOf job).CallsOnly (RecordCall.Marks (some job)) :=
      .persisted (Program.Yields.ask trivial)
    exact .inr (.bind only.toServices fun _ => .pure)

namespace Stores

/-- The row of the job has this start stamp. -/
def Stamped (s : Stores) (id : JobId) (time : Timestamp) : Prop :=
  ∃ row, s.jobs.find? id = some row ∧ row.startedAt = some time

/-- A call leaves a start stamp as it is, unless it puts a job without this stamp in the place of
the row. -/
theorem Replies.stamped {s t : Stores} {c : ServiceCall} {answer : c.Answer}
    (answered : s.Replies c answer t) {id : JobId} {time : Timestamp}
    (stamped : s.Stamped id time) :
    t.Stamped id time ∨ ∃ job,
      (⟨c, answer⟩ : Services.Exchange) = ⟨.records (.updateJob job), .ok true⟩ ∧
      job.id = id ∧ job.startedAt ≠ some time := by
  obtain ⟨row, found, stamp⟩ := stamped
  cases c with
  | records c =>
    cases Answers.writes answered with
    | nothing | insertPost _ => exact .inl ⟨row, found, stamp⟩
    | insertJob inserted =>
      refine .inl ⟨row, ?_, stamp⟩
      simp [JobStore.find?_append (JobStore.insert_eq_ok inserted).1, found]
    | @updateJob job written jobs updated =>
      obtain ⟨_, _, ⟨_, _, rfl⟩ | ⟨rfl, _, replaced⟩⟩ := JobStore.update_eq_ok updated
      · exact .inl ⟨row, found, stamp⟩
      · obtain rfl := JobStore.id_of_find? found
        have now : jobs.find? row.id = some (if row.id = job.id then job else row) := by
          rw [JobStore.find?_replace replaced, found, Option.map_some]
        by_cases same : row.id = job.id
        · rw [if_pos same] at now
          by_cases kept : job.startedAt = some time
          · exact .inl ⟨job, now, kept⟩
          · exact .inr ⟨job, rfl, same.symm, kept⟩
        · rw [if_neg same] at now
          exact .inl ⟨row, now, stamp⟩
  | _ => obtain rfl := answered; exact .inl ⟨row, found, stamp⟩

end Stores

namespace Office

variable {log past future : OfficeLog} {office later : Office}

/-- What an errand writes is a mark of its copy, unless it is an execution. -/
theorem Runs.marks (reached : Runs {} log office) {i : Nat} {errand : Errand}
    (here : office.errands[i]? = some errand) {job : Job} {written : Except ServiceFault Bool}
    (update : (i, ⟨.records (.updateJob job), written⟩) ∈ log) :
    (∃ engine request, errand.task = .execute engine request) ∨
      ∃ copy, errand.task.job? = some copy ∧ job.IsMarkOf copy := by
  refine errand.task.marks.imp_right fun only => ?_
  exact (Program.Yields.follows only.meets (reached.follows here)).1 _ (OfficeLog.mem_of.2 update)

/-- The stamp of a row stays in a run that writes no job without it in the place of the row. -/
theorem Runs.stamped (onward : Runs office future later) {id : JobId} {time : Timestamp}
    (stamped : office.stores.Stamped id time) :
    later.stores.Stamped id time ∨ ∃ i job,
      (i, ⟨.records (.updateJob job), .ok true⟩) ∈ future ∧
      job.id = id ∧ job.startedAt ≠ some time := by
  induction onward with
  | refl => exact .inl stamped
  | add task _ _ ih => exact ih
  | @call log b i task c next answer stores _ _ answered ih =>
    rcases ih with kept | ⟨j, job, member, lost⟩
    · refine (answered.stamped kept).imp_right fun ⟨job, write, lost⟩ => ⟨i, job, ?_, lost⟩
      rw [← write]
      exact List.mem_append_right _ (List.mem_singleton_self _)
    · exact .inr ⟨j, job, List.mem_append_left _ member, lost⟩

/-- When a start stamp is lost. Take any run of an office from its beginning, a row in it with a
start stamp, and any way on. There is a later state in which the row has not got this stamp any
more exactly if a job without it was written in the place of the row. Whoever wrote it, other than
an execution, marked a copy that had not got the stamp either. -/
theorem start_stamp_lost_iff (reached : Runs {} past office) (onward : Runs office future later)
    {row : Job} {time : Timestamp} (stored : office.stores.jobs.find? row.id = some row)
    (stamped : row.startedAt = some time) :
    ((∃ before after mid, future = before ++ after ∧ Runs office before mid ∧
        Runs mid after later ∧ ∃ now, mid.stores.jobs.find? row.id = some now ∧
          now.startedAt ≠ some time) ↔
      ∃ i job, (i, ⟨.records (.updateJob job), .ok true⟩) ∈ future ∧ job.id = row.id ∧
        job.startedAt ≠ some time) ∧
    ∀ i job, (i, ⟨.records (.updateJob job), .ok true⟩) ∈ future → job.id = row.id →
      job.startedAt ≠ some time → ∃ errand, later.errands[i]? = some errand ∧
        ((∃ engine request, errand.task = .execute engine request) ∨
          ∃ copy, errand.task.job? = some copy ∧ job.IsMarkOf copy ∧ copy.id = row.id ∧
            copy.startedAt ≠ some time) := by
  have whole := reached.trans onward
  refine ⟨⟨?_, ?_⟩, ?_⟩
  · rintro ⟨before, after, mid, rfl, there, _, now, found, lost⟩
    rcases there.stamped ⟨row, stored, stamped⟩ with ⟨other, same, kept⟩ | ⟨i, job, member, is⟩
    · obtain rfl : other = now := by simpa [found] using same.symm
      exact absurd kept lost
    · exact ⟨i, job, List.mem_append_left _ member, is⟩
  · rintro ⟨i, job, member, same, lost⟩
    obtain ⟨before, after, rfl⟩ := List.append_of_mem member
    rw [List.append_cons] at onward ⊢
    obtain ⟨mid, there, rest⟩ := onward.split
    obtain ⟨s, jobs, updated, stores⟩ := there.last
    refine ⟨_, _, mid, rfl, there, rest, job, ?_, lost⟩
    rw [stores, ← same]
    exact JobStore.find?_of_update updated
  · intro i job member same lost
    obtain ⟨errand, here, _⟩ := whole.answered .empty (List.mem_append_right _ member)
    refine ⟨errand, here, ?_⟩
    refine (whole.marks here (List.mem_append_right _ member)).imp_right ?_
    rintro ⟨copy, has, isMark⟩
    exact ⟨copy, has, isMark, isMark.id.symm.trans same, fun kept => lost (isMark.startedAt kept)⟩

end Office

namespace Rehearsal

namespace Session

/-- The task comes to a reply with this copy of a job. -/
def answers (session : Session) (task : Task) (job : Job) : Bool :=
  ((task.action.run.run Stage.perform session.stage).1.bind Except.toOption).any
    fun reply => reply.job? == some job

theorem handsOut_attend {session : Session} {task : Task} {job : Job}
    (replied : session.answers task job = true) : (session.attend task).office.HandsOut job := by
  obtain ⟨reply, ended, has⟩ := Program.exists_ok _ replied
  refine ⟨⟨task, .done (.ok reply)⟩, ?_, reply, rfl, by simpa using has⟩
  simp [office, errands_attend, ended, Program.ended]

theorem handsOut_later {session : Session} {job : Job} (handedOut : session.office.HandsOut job)
    (task : Task) : (session.attend task).office.HandsOut job := by
  obtain ⟨errand, member, rest⟩ := handedOut
  exact ⟨errand, List.mem_append_left _ member, rest⟩

/-- A task is carried out on what the tasks before it left. -/
theorem IsRun.onward {session : Session} (isRun : session.IsRun) (task : Task)
    (handedOut : ∀ job, task.job? = some job → session.office.HandsOut job) :
    session.office.Runs ((task.action.run.transcript Stage.perform session.stage).map
      (Prod.mk session.errands.length)) (session.attend task).office :=
  Office.Runs.refl.attend handedOut
    (Program.plays_run Stage.perform_imitates task.action.run isRun.2).1

end Session

namespace Cast

/-- The job of the request as it is opened first on a stage. -/
def opened : Job := .ofRequest request Job.defaultMaxRetries ⟨.ofNat 16⟩ morning

/-- The job after it is started. -/
def started : Job := { opened with startedAt := some morning }

/-- The job after its copy from before its start is marked as a failure. -/
def failed (now : Timestamp) : Job := { opened with
  status := .failed, finishedAt := some now, lastError := some "late", updatedAt := now }

/-- A copy of the job is marked as a failure. -/
def failing (copy : Job) : Task := .fail copy "late"

def waiting : Session := { stage := stage [] [] }

/-- A session in which the job is opened. -/
def opening : Session := waiting.attend (.openJob Job.defaultMaxRetries request)

/-- A session in which the job is opened and started. -/
def starting : Session := opening.attend (.start opened)

/-- The calls by which a copy of the job is marked as a failure. -/
def failingCalls (copy : Job) : OfficeLog :=
  ((failing copy).action.run.transcript Stage.perform starting.stage).map
    (Prod.mk starting.errands.length)

/-- The exchange writes no job without the stamp of the start. -/
def keepsStamp (exchange : Services.Exchange) : Bool :=
  match exchange with
  | ⟨.records (.updateJob job), _⟩ => job.startedAt == some morning
  | _ => true

/-- What the stage shows of these sessions. -/
theorem starting_shown : waiting.answers (.openJob Job.defaultMaxRetries request) opened = true ∧
    opening.answers (.start opened) started = true ∧
    starting.office.stores.jobs.find? started.id = some started ∧
    (failingCalls started).all (fun entry => keepsStamp entry.2) = true ∧
    (starting.attend (failing opened)).office.stores.jobs.find? started.id =
      some (failed morning) := by
  decide +kernel

theorem opening_handsOut : opening.office.HandsOut opened :=
  Session.handsOut_attend starting_shown.1

theorem starting_handsOut : starting.office.HandsOut opened ∧ starting.office.HandsOut started :=
  ⟨Session.handsOut_later opening_handsOut _, Session.handsOut_attend starting_shown.2.1⟩

theorem opening_isRun : opening.IsRun :=
  (Session.IsRun.of_empty (stage_honest [] []) rfl).attend _ (by simp [Task.job?])

theorem starting_isRun : starting.IsRun := by
  refine opening_isRun.attend _ ?_
  rintro _ ⟨⟩
  exact opening_handsOut

theorem failing_tasks (copy : Job) : (starting.attend (failing copy)).office.errands.map (·.task) =
    [.openJob Job.defaultMaxRetries request, .start opened, failing copy] := by
  simp [Session.office, starting, opening, waiting, Session.errands_attend]

theorem failing_onward {copy : Job} (handedOut : starting.office.HandsOut copy) :
    starting.office.Runs (failingCalls copy) (starting.attend (failing copy)).office := by
  refine starting_isRun.onward (failing copy) ?_
  rintro _ ⟨⟩
  exact handedOut

end Cast

end Rehearsal

namespace Office

open Rehearsal

/-- A job is opened and started, and then the copy that the start answered is marked as a failure:
the stamp is there all the time. -/
theorem start_stamp_lost_never : ∃ past office future later,
    Runs {} past office ∧ Runs office future later ∧
    later.errands.map (·.task) = [.openJob Job.defaultMaxRetries Cast.request,
      .start Cast.opened, .fail Cast.started "late"] ∧
    office.stores.jobs.find? Cast.started.id = some Cast.started ∧
    ¬ ∃ before after mid, future = before ++ after ∧ Runs office before mid ∧
      Runs mid after later ∧ ∃ now, mid.stores.jobs.find? Cast.started.id = some now ∧
        now.startedAt ≠ some Cast.morning := by
  obtain ⟨_, _, stored, keeps, _⟩ := Cast.starting_shown
  have onward := Cast.failing_onward Cast.starting_handsOut.2
  have stamped : Cast.started.startedAt = some Cast.morning := rfl
  have iff := (start_stamp_lost_iff Cast.starting_isRun.1 onward stored stamped).1
  refine ⟨_, _, _, _, Cast.starting_isRun.1, onward, Cast.failing_tasks _, stored, ?_⟩
  intro lost
  obtain ⟨i, job, member, _, unstamped⟩ := iff.1 lost
  exact unstamped (by simpa [Cast.keepsStamp] using List.all_eq_true.1 keeps _ member)

/-- A job is opened and started, and then the copy from before its start is marked as a failure:
the stamp is gone. -/
theorem start_stamp_lost_by_failure : ∃ past office future later row,
    Runs {} past office ∧ Runs office future later ∧
    later.errands.map (·.task) = [.openJob Job.defaultMaxRetries Cast.request,
      .start Cast.opened, .fail Cast.opened "late"] ∧
    office.stores.jobs.find? Cast.started.id = some Cast.started ∧
    later.stores.jobs.find? Cast.started.id = some row ∧ row.startedAt = none := by
  obtain ⟨_, _, stored, _, lost⟩ := Cast.starting_shown
  exact ⟨_, _, _, _, Cast.failed Cast.morning, Cast.starting_isRun.1,
    Cast.failing_onward Cast.starting_handsOut.1, Cast.failing_tasks _, stored, lost, rfl⟩

end Office

end Syndication
