import Syndication.Proofs.Execution

namespace Syndication

namespace RecordCall

/-- A call that neither stores a post nor ends a job. -/
def IsQuiet : RecordCall → Prop
  | .insertPost _ => False
  | .updateJob job => job.status = .pending
  | _ => True

/-- A quiet call that sends nothing. -/
def IsSilent : RecordCall → Prop
  | .insertPost _ | .send _ => False
  | .updateJob job => job.status = .pending
  | _ => True

/-- A call that looks for a key, or makes a new job. -/
def IsOpening : RecordCall → Prop
  | .now | .freshId | .insertJob _ | .findJobByKey _ => True
  | _ => False

/-- A call that stores nothing. -/
def WritesNothing : RecordCall → Prop
  | .insertJob _ | .updateJob _ | .insertPost _ => False
  | _ => True

/-- A call by which an event is sent. -/
def IsTelling : RecordCall → Prop
  | .now | .freshId | .send _ => True
  | _ => False

/-- A call by which a copy of a job is started. -/
def Starts (copy : Job) : RecordCall → Prop
  | .now | .findJob _ => True
  | .updateJob job => ∃ now, copy.markStarted now = (job, true)
  | _ => False

/-- A call by which a copy of a job is moved to success. -/
def Succeeds (copy : Job) : RecordCall → Prop
  | .now | .freshId | .findJob _ | .findPost _ => True
  | .insertPost post => post.platform = copy.platform
  | .updateJob job => ∃ now, copy.markSuccess now = (job, true)
  | _ => False

/-- A call by which a copy of a job is moved to failure. -/
def Fails (copy : Job) : RecordCall → Prop
  | .now | .findJob _ => True
  | .updateJob job => ∃ message now, copy.markFailure message now = (job, true)
  | _ => False

/-- A call by which a success may be booked for a platform. -/
def BooksSuccess (platform : String) : RecordCall → Prop
  | .insertPost post => post.platform = platform
  | .updateJob job => job.status ≠ .failed
  | _ => True

def BooksFailure : RecordCall → Prop
  | .insertPost _ => False
  | _ => True

def FailsNoJob : RecordCall → Prop
  | .updateJob job => job.status ≠ .failed
  | _ => True

def PostsWithin (registry : Registry Platform) : RecordCall → Prop
  | .insertPost post => ∃ publisher, registry.resolve post.platform = .ok publisher
  | _ => True

theorem BooksSuccess.failsNoJob {platform : String} {c : RecordCall}
    (books : c.BooksSuccess platform) : c.FailsNoJob := by
  cases c with
  | updateJob job => exact books
  | _ => trivial

theorem BooksSuccess.postsWithin {registry : Registry Platform} {platform : String}
    {publisher : Platform} (resolved : registry.resolve platform = .ok publisher) {c : RecordCall}
    (books : c.BooksSuccess platform) : c.PostsWithin registry := by
  cases c with
  | insertPost post =>
    obtain rfl : post.platform = platform := books
    exact ⟨publisher, resolved⟩
  | _ => trivial

theorem BooksFailure.postsWithin {registry : Registry Platform} {c : RecordCall}
    (books : c.BooksFailure) : c.PostsWithin registry := by
  cases c with
  | insertPost post => cases books
  | _ => trivial

theorem IsOpening.silent {c : RecordCall} (opening : c.IsOpening) : c.IsSilent := by
  cases c with
  | now | freshId | insertJob _ | findJobByKey _ => trivial
  | _ => cases opening

theorem Starts.silent {copy : Job} {c : RecordCall} (starts : c.Starts copy) : c.IsSilent := by
  cases c with
  | updateJob job =>
    obtain ⟨now, is⟩ := starts
    rcases copy.markStarted_eq now with marked | ⟨started, marked, _, pending⟩
    · cases marked.symm.trans is
    · cases marked.symm.trans is
      exact pending
  | now | findJob _ => trivial
  | _ => cases starts

theorem Succeeds.booksSuccess {copy : Job} {c : RecordCall} (succeeds : c.Succeeds copy) :
    c.BooksSuccess copy.platform := by
  cases c with
  | updateJob job =>
    obtain ⟨now, is⟩ := succeeds
    rcases copy.markSuccess_eq now with marked | ⟨done, marked, _, success⟩
    · cases marked.symm.trans is
    · cases marked.symm.trans is
      simp [BooksSuccess, success]
  | insertPost post => exact succeeds
  | _ => trivial

theorem Fails.booksFailure {copy : Job} {c : RecordCall} (fails : c.Fails copy) :
    c.BooksFailure := by
  cases c with
  | insertPost post => cases fails
  | _ => trivial

theorem IsTelling.writesNothing {c : RecordCall} (telling : c.IsTelling) : c.WritesNothing := by
  cases c with
  | now | freshId | send _ => trivial
  | _ => cases telling

theorem WritesNothing.quiet {c : RecordCall} (nothing : c.WritesNothing) : c.IsQuiet := by
  cases c with
  | insertJob _ | updateJob _ | insertPost _ => cases nothing
  | _ => trivial

theorem IsTelling.quiet {c : RecordCall} (telling : c.IsTelling) : c.IsQuiet :=
  telling.writesNothing.quiet

theorem IsSilent.quiet {c : RecordCall} (silent : c.IsSilent) : c.IsQuiet := by
  cases c with
  | insertPost post => cases silent
  | updateJob job => exact silent
  | _ => trivial

theorem IsQuiet.booksSuccess {c : RecordCall} (quiet : c.IsQuiet) (platform : String) :
    c.BooksSuccess platform := by
  cases c with
  | insertPost post => cases quiet
  | updateJob job =>
    have pending : job.status = .pending := quiet
    simp [BooksSuccess, pending]
  | _ => trivial

theorem IsQuiet.booksFailure {c : RecordCall} (quiet : c.IsQuiet) : c.BooksFailure := by
  cases c with
  | insertPost post => cases quiet
  | _ => trivial

end RecordCall

def ServiceCall.Within (allowed : RecordCall → Prop) : ServiceCall → Prop
  | .records c => allowed c
  | _ => True

theorem ServiceCall.Within.mono {allowed more : RecordCall → Prop} {c : ServiceCall}
    (within : c.Within allowed) (subset : ∀ c, allowed c → more c) : c.Within more := by
  cases c with
  | records c => exact subset c within
  | _ => trivial

section

variable {c : ServiceCall} (quiet : c.Within RecordCall.IsQuiet)
include quiet

theorem ServiceCall.Within.booksFailure : c.Within RecordCall.BooksFailure :=
  quiet.mono fun _ is => is.booksFailure

theorem ServiceCall.Within.failsNoJob : c.Within RecordCall.FailsNoJob :=
  quiet.mono fun _ is => (is.booksSuccess "").failsNoJob

theorem ServiceCall.Within.postsWithin (registry : Registry Platform) :
    c.Within (RecordCall.PostsWithin registry) :=
  quiet.mono fun _ is => is.booksFailure.postsWithin

end

theorem ServiceCall.IsOutside.within_quiet {c : ServiceCall} (outside : c.IsOutside) :
    c.Within RecordCall.IsQuiet := by
  cases c with
  | records c => cases c <;> trivial
  | _ => trivial

theorem Program.Yields.through {α : Type} {allowed : RecordCall → Prop} {post : α → Prop}
    {p : Program Records α} (yields : p.Yields allowed post) {more : ServiceCall → Prop}
    (subset : ∀ c, allowed c → more (.records c)) :
    (p.through fun c => .ask (I := Services) (.records c)).Yields more post := by
  induction p with
  | done value => exact yields
  | overflow => trivial
  | call c next ih =>
    intro _ _ _
    obtain ⟨here, goesOn⟩ := yields () trivial trivial
    exact ⟨subset c here, fun a _ _ => ih a (goesOn a () trivial)⟩

theorem Action.CallsOnly.toServices {α : Type} {allowed : RecordCall → Prop}
    {work : Action Records α} (only : work.CallsOnly allowed) :
    work.toServices.CallsOnly (ServiceCall.Within allowed) :=
  ⟨Program.Yields.through only.meets fun _ is => is⟩

namespace Ledger

open Syndication.Action Program

theorem stored_only {allowed : RecordCall → Prop} {id : JobId} (find : allowed (.findJob id)) :
    (stored id).CallsOnly allowed := by
  unfold stored
  refine .bind (.persisted (Yields.ask find)) fun found => ?_
  cases found with
  | some job => exact .pure
  | none => exact .throw

theorem yieldTo_opening (request : Request) (key : String) (fault : ServiceFault) :
    (yieldTo request key fault).CallsOnly RecordCall.IsOpening := by
  unfold yieldTo
  refine .bind (.persisted (Yields.ask trivial)) fun found => ?_
  cases found with
  | some winner => exact .ofExcept
  | none => exact .throw

theorem insertNew_opening (budget : UInt32) (request : Request) :
    (insertNew budget request).CallsOnly RecordCall.IsOpening := by
  unfold insertNew
  refine .bind (.always (Yields.ask trivial)) fun id => ?_
  refine .bind (.always (Yields.ask trivial)) fun now => ?_
  refine .bind (.always (Yields.ask trivial)) fun answer => ?_
  cases answer with
  | ok _ => exact .pure
  | error fault =>
    simp only
    split
    · split
      · exact yieldTo_opening request _ fault
      · exact .throw
    · exact .throw

theorem openJob_opening (budget : UInt32) (request : Request) :
    (openJob budget request).CallsOnly RecordCall.IsOpening := by
  unfold openJob
  refine .bind .ofExcept fun _ => ?_
  split
  · exact insertNew_opening budget request
  · refine .bind (.persisted (Yields.ask trivial)) fun found => ?_
    cases found with
    | some existing => exact .ofExcept
    | none => exact insertNew_opening budget request

theorem openJob_silent (budget : UInt32) (request : Request) :
    (openJob budget request).CallsOnly RecordCall.IsSilent :=
  (openJob_opening budget request).mono fun _ => (·.silent)

theorem start_starts (job : Job) : (start job).CallsOnly (RecordCall.Starts job) := by
  unfold start
  refine .bind (.always (Yields.ask trivial)) fun now => ?_
  rcases job.markStarted_eq now with marked | ⟨started, marked, _⟩
  · simp only [marked]
    exact .pure
  · simp only [marked]
    have update : (RecordCall.updateJob started).Starts job := ⟨now, marked⟩
    refine .bind (.persisted (Yields.ask update)) fun written => ?_
    cases written with
    | true => exact .pure
    | false => exact stored_only trivial

theorem start_silent (job : Job) : (start job).CallsOnly RecordCall.IsSilent :=
  (start_starts job).mono fun _ => (·.silent)

theorem openJob_quiet (budget : UInt32) (request : Request) :
    (openJob budget request).CallsOnly RecordCall.IsQuiet :=
  (openJob_silent budget request).mono fun _ => (·.quiet)

theorem start_quiet (job : Job) : (start job).CallsOnly RecordCall.IsQuiet :=
  (start_silent job).mono fun _ => (·.quiet)

theorem recordPost_only {allowed : RecordCall → Prop} {post : Post}
    (insert : allowed (.insertPost post)) (find : allowed (.findPost post.jobId)) :
    (recordPost post).CallsOnly allowed := by
  unfold recordPost
  refine .bind (.always (Yields.ask insert)) fun answer => ?_
  cases answer with
  | ok _ => exact .pure
  | error fault =>
    simp only
    split
    · exact .bind (.persisted (Yields.ask find)) fun _ => .pure
    · exact .throw

/-- A move to success stores the job as it is marked now, and before that a post that the result
makes for this mark. -/
theorem succeed_only {allowed : RecordCall → Prop} {job : Job} {result : PublishResult}
    (now : allowed .now) (fresh : allowed .freshId) (row : ∀ id, allowed (.findJob id))
    (earlier : ∀ id, allowed (.findPost id))
    (writes : ∀ now candidate, job.markSuccess now = (candidate, true) →
      allowed (.updateJob candidate) ∧ ∀ id post,
        Post.ofSuccess? candidate result id now = some post → allowed (.insertPost post)) :
    (succeed job result).CallsOnly allowed := by
  unfold succeed
  split
  · refine .bind (.always (Yields.ask now)) fun now => ?_
    rcases job.markSuccess_eq now with marked | ⟨candidate, marked, _⟩
    · simp only [marked]
      exact .pure
    · obtain ⟨update, insert⟩ := writes now candidate marked
      simp only [marked]
      refine .bind (stored_only (row _)) fun found => ?_
      split
      · exact .pure
      · refine .bind (.always (Yields.ask fresh)) fun id => ?_
        split
        · rename_i post made
          unfold finish
          refine .bind (recordPost_only (insert _ post made) (earlier _)) fun recorded => ?_
          refine .bind (.persisted (Yields.ask update)) fun written => ?_
          cases written with
          | true => exact .pure
          | false => exact .bind (stored_only (row _)) fun _ => .pure
        · exact .pure
  · exact .throw

theorem fail_fails (job : Job) (message : String) :
    (fail job message).CallsOnly (RecordCall.Fails job) := by
  unfold fail
  refine .bind (.always (Yields.ask trivial)) fun now => ?_
  rcases job.markFailure_eq message now with marked | ⟨failed, marked, _⟩
  · simp only [marked]
    exact .pure
  · simp only [marked]
    have update : (RecordCall.updateJob failed).Fails job := ⟨message, now, marked⟩
    refine .bind (.persisted (Yields.ask update)) fun written => ?_
    cases written with
    | true => exact .pure
    | false => exact .bind (stored_only trivial) fun _ => .pure

theorem succeed_succeeds (job : Job) (result : PublishResult) :
    (succeed job result).CallsOnly (RecordCall.Succeeds job) := by
  refine succeed_only trivial trivial (fun _ => trivial) (fun _ => trivial) ?_
  intro now candidate marked
  refine ⟨⟨now, marked⟩, fun id post made => ?_⟩
  obtain ⟨_, _, platform⟩ := Post.ofSuccess?_eq_some made
  exact platform.trans (Job.platform_eq_of_work_eq (Job.work_of_markSuccess marked))

theorem succeed_books (job : Job) (result : PublishResult) :
    (succeed job result).CallsOnly (RecordCall.BooksSuccess job.platform) :=
  (succeed_succeeds job result).mono fun _ => (·.booksSuccess)

theorem fail_books (job : Job) (message : String) :
    (fail job message).CallsOnly RecordCall.BooksFailure :=
  (fail_fails job message).mono fun _ => (·.booksFailure)

theorem postOf_silent (job : Job) : (postOf job).CallsOnly RecordCall.IsSilent :=
  .persisted (Yields.ask trivial)

theorem postOf_quiet (job : Job) : (postOf job).CallsOnly RecordCall.IsQuiet :=
  (postOf_silent job).mono fun _ => (·.quiet)

end Ledger

namespace Announcement

open Syndication.Action Program

theorem send_telling (job : Job) (event : Event) :
    (send job event).CallsOnly RecordCall.IsTelling := .delivered (Yields.ask trivial)

theorem timeOf_telling (known : Option Timestamp) :
    (timeOf known).Yields RecordCall.IsTelling fun _ => True := by
  cases known with
  | none => exact Yields.ask trivial
  | some time => trivial

theorem started_telling (job : Job) : (started job).CallsOnly RecordCall.IsTelling := by
  unfold started
  refine .bind (.always (Yields.ask trivial)) fun id => ?_
  refine .bind (.always (timeOf_telling _)) fun time => ?_
  exact .bind (send_telling _ _) fun _ => .pure

theorem succeeded_telling (job : Job) (post : Post) :
    (succeeded job post).CallsOnly RecordCall.IsTelling := by
  unfold succeeded
  refine .bind (.always (Yields.ask trivial)) fun id => ?_
  exact .bind (send_telling _ _) fun _ => .pure

theorem failed_telling (job : Job) (kind : FailureKind) (message : String) :
    (failed job kind message).CallsOnly RecordCall.IsTelling := by
  unfold failed
  refine .bind (.always (Yields.ask trivial)) fun id => ?_
  refine .bind (.always (timeOf_telling _)) fun time => ?_
  exact .bind (send_telling _ _) fun _ => .pure

theorem retryRequested_telling (job : Job) (reason : String) :
    (retryRequested job reason).CallsOnly RecordCall.IsTelling := by
  unfold retryRequested
  refine .bind (.always (Yields.ask trivial)) fun id => ?_
  refine .bind (.always (Yields.ask trivial)) fun time => ?_
  exact .bind (send_telling _ _) fun _ => .pure

theorem started_quiet (job : Job) : (started job).CallsOnly RecordCall.IsQuiet :=
  (started_telling job).mono fun _ => (·.quiet)

end Announcement

namespace Engine

open Syndication.Action Program

theorem tryAnnounce_only {α : Type} {allowed : RecordCall → Prop}
    {announcement : Action Records α} (only : announcement.CallsOnly allowed) :
    (tryAnnounce announcement).CallsOnly (ServiceCall.Within allowed) :=
  .always (.map (only.toServices.meets.weaken fun _ _ _ => trivial))

theorem reportStored_writesNothing (job : Job) :
    (reportStored job).CallsOnly (ServiceCall.Within RecordCall.WritesNothing) := by
  have announces {α : Type} {announcement : Action Records α}
      (telling : announcement.CallsOnly RecordCall.IsTelling) :
      (tryAnnounce announcement).CallsOnly (ServiceCall.Within RecordCall.WritesNothing) :=
    tryAnnounce_only (telling.mono fun _ => (·.writesNothing))
  unfold reportStored
  split
  · have reads : (Ledger.postOf job).CallsOnly RecordCall.WritesNothing :=
      .persisted (Yields.ask trivial)
    refine .bind reads.toServices fun found => ?_
    cases found with
    | none => exact .pure
    | some post => exact .bind (announces (Announcement.succeeded_telling job post)) fun _ => .pure
  · exact .bind (announces (Announcement.failed_telling job _ _)) fun _ => .pure
  · exact .pure

section

variable {allowed : RecordCall → Prop} {job : Job}
  (nothing : ∀ c : RecordCall, c.WritesNothing → allowed c)
include nothing

theorem reportStored_only (job : Job) :
    (reportStored job).CallsOnly (ServiceCall.Within allowed) :=
  (reportStored_writesNothing job).mono fun _ within => within.mono nothing

theorem tryAnnounce_telling {α : Type} {announcement : Action Records α}
    (telling : announcement.CallsOnly RecordCall.IsTelling) :
    (tryAnnounce announcement).CallsOnly (ServiceCall.Within allowed) :=
  tryAnnounce_only (telling.mono fun c tells => nothing c tells.writesNothing)

/-- Besides the move itself, the completion of a success writes nothing. -/
theorem completeSuccess_only {result : PublishResult}
    (succeeds : (Ledger.succeed job result).CallsOnly allowed) :
    (completeSuccess job result).CallsOnly (ServiceCall.Within allowed) := by
  unfold completeSuccess
  refine .bind succeeds.toServices fun answer => ?_
  obtain ⟨done, post⟩ := answer
  cases post with
  | none => exact reportStored_only nothing done
  | some post =>
    exact .bind (tryAnnounce_telling nothing (Announcement.succeeded_telling done post))
      fun _ => .pure

/-- Besides the move itself, the completion of a failure writes nothing. -/
theorem completeFailure_only {kind : FailureKind} {message : String}
    (fails : (Ledger.fail job (kind.tagMessage message)).CallsOnly allowed) :
    (completeFailure job kind message).CallsOnly (ServiceCall.Within allowed) := by
  unfold completeFailure
  refine .bind fails.toServices fun answer => ?_
  obtain ⟨done, isNew⟩ := answer
  cases isNew with
  | false => exact reportStored_only nothing done
  | true =>
    refine .bind (tryAnnounce_telling nothing (Announcement.failed_telling done kind _))
      fun _ => ?_
    split
    · exact .bind (tryAnnounce_telling nothing (Announcement.retryRequested_telling done _))
        fun _ => .pure
    · exact .pure

end

theorem reportStored_quiet (job : Job) :
    (reportStored job).CallsOnly (ServiceCall.Within RecordCall.IsQuiet) :=
  reportStored_only (fun _ => (·.quiet)) job

theorem completeSuccess_books (job : Job) (result : PublishResult) :
    (completeSuccess job result).CallsOnly
      (ServiceCall.Within (RecordCall.BooksSuccess job.platform)) :=
  completeSuccess_only (fun _ nothing => nothing.quiet.booksSuccess _)
    (Ledger.succeed_books job result)

theorem completeFailure_books (job : Job) (kind : FailureKind) (message : String) :
    (completeFailure job kind message).CallsOnly
      (ServiceCall.Within RecordCall.BooksFailure) :=
  completeFailure_only (fun _ nothing => nothing.quiet.booksFailure) (Ledger.fail_books job _)

theorem complete_books (job : Job) (outcome : Except PublishError PublishResult) :
    (∃ result, outcome = .ok result ∧ (complete job outcome).CallsOnly
      (ServiceCall.Within (RecordCall.BooksSuccess job.platform))) ∨
      (complete job outcome).CallsOnly (ServiceCall.Within RecordCall.BooksFailure) := by
  cases outcome with
  | error error => exact .inr (completeFailure_books job error.kind error.message)
  | ok result =>
    simp only [complete]
    split
    · exact .inl ⟨result, rfl, completeSuccess_books job result⟩
    · exact .inr (completeFailure_books job _ _)

theorem execute_postsWithin (engine : Engine) (request : Request) :
    (engine.execute request).CallsOnly
      (ServiceCall.Within (RecordCall.PostsWithin engine.registry)) := by
  have quiet : ∀ c, ServiceCall.Within RecordCall.IsQuiet c →
      ServiceCall.Within (RecordCall.PostsWithin engine.registry) c :=
    fun _ within => within.postsWithin _
  unfold execute
  refine .bind ((Ledger.openJob_quiet _ request).toServices.mono quiet) fun job => ?_
  split
  · exact .pure
  · refine .bind ((Ledger.start_quiet job).toServices.mono quiet) fun job => ?_
    split
    · exact .pure
    · refine .bind ((Announcement.started_quiet job).toServices.mono quiet) fun _ => ?_
      have attempt := Yields.meets (engine.attempt_yields job request).meets
        (.free (ServiceCall.Within (RecordCall.PostsWithin engine.registry)))
        (fun c outside _ => quiet c outside.within_quiet) ()
      refine Ensures.bind (.always attempt) trivial fun outcome _ _ _ resolved => ?_
      rcases complete_books job outcome with ⟨result, rfl, books⟩ | books
      · obtain ⟨publisher, resolved⟩ := resolved result rfl
        exact books.mono fun c within => within.mono fun _ is => is.postsWithin resolved
      · exact books.mono fun c within => within.mono fun _ is => is.postsWithin

/-- One execution does not both fail a job and store a post. -/
theorem execute_either (engine : Engine) (request : Request) :
    (engine.execute request).EitherOnly (ServiceCall.Within RecordCall.FailsNoJob)
      (ServiceCall.Within RecordCall.BooksFailure) := by
  have failsNoJob : ∀ c, ServiceCall.Within RecordCall.IsQuiet c →
      ServiceCall.Within RecordCall.FailsNoJob c := fun _ within => within.failsNoJob
  have booksFailure : ∀ c, ServiceCall.Within RecordCall.IsQuiet c →
      ServiceCall.Within RecordCall.BooksFailure c := fun _ within => within.booksFailure
  unfold execute
  refine .bind (Ledger.openJob_quiet _ request).toServices failsNoJob booksFailure fun job => ?_
  split
  · exact .left .pure
  · refine .bind (Ledger.start_quiet job).toServices failsNoJob booksFailure fun job => ?_
    split
    · exact .left .pure
    · refine .bind (Announcement.started_quiet job).toServices failsNoJob booksFailure
        fun _ => ?_
      have outside := (engine.attempt_outside job request).mono fun _ => (·.within_quiet)
      refine .bind (.always (outside.meets.weaken fun _ _ _ => trivial)) failsNoJob booksFailure
        fun outcome => ?_
      rcases complete_books job outcome with ⟨_, _, books⟩ | books
      · exact .left (books.mono fun c within => within.mono fun _ is => is.failsNoJob)
      · exact .right books

end Engine

end Syndication
