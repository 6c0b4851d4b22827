import Syndication.Proofs.Deeds

namespace Syndication

/-- The result is one of those that are built here, and not one that came with parts missing. -/
def PublishResult.IsComplete (result : PublishResult) : Prop :=
  (∃ id link, result = .published id link) ∨ ∃ kind message, result = .failed kind message

theorem PublishResult.IsComplete.makes_post {result : PublishResult} (complete : result.IsComplete)
    (success : result.success = true) (job : Job) (id : PostId) (now : Timestamp) :
    (Post.ofSuccess? job result id now).isSome = true := by
  rcases complete with ⟨_, _, rfl⟩ | ⟨_, _, rfl⟩
  · rfl
  · cases success

abbrev Deed.announced (job : Job) (event : Event) (taken : Bool) : Deed :=
  .told (Announcement.envelope job event) taken

/-- A failure after which another attempt is asked for. -/
def Job.WantsRetry (job : Job) (kind : FailureKind) : Prop :=
  kind.isRetryable = true ∧ job.hasRetryBudget = true

theorem Job.wantsRetry_iff {job : Job} {kind : FailureKind} : job.WantsRetry kind ↔
    (kind = .rateLimited ∨ kind = .transientNetwork) ∧ job.retryCount < job.maxRetries := by
  cases kind <;> simp [WantsRetry, FailureKind.isRetryable, hasRetryBudget]

/-- The deeds by which an execution of the job closes, and where it stands then. It may be left
without an end only if the attempt was not `complete`. -/
inductive Closing (job : Job) (complete : Prop) :
    List Deed → Stand (Except PublishError Execution) → Prop
  | broken {stand} : (∀ execution, stand ≠ .ended (.ok execution)) → Closing job complete [] stand
  | unsettled {row} : ¬ complete → Closing job complete [] (.ended (.ok ⟨row, .alreadyCompleted⟩))
  | toldSuccess {row success post taken} : row.work = job.work → success.jobId = row.id →
      Closing job complete [.announced row (.succeeded success) taken]
        (.ended (.ok ⟨row, .published post⟩))
  | toldFailure {row failure kind message taken} : row.work = job.work → failure.jobId = row.id →
      Closing job complete [.announced row (.failed failure) taken]
        (.ended (.ok ⟨row, .failed kind message false⟩))
  | recorded {row} : row.work = job.work → row.isTerminal = true →
      Closing job complete [.ended row] .underway
  | succeeded {row success post taken} : row.work = job.work → success.jobId = row.id →
      row.status = .success →
      Closing job complete [.ended row, .announced row (.succeeded success) taken]
        (.ended (.ok ⟨row, .published post⟩))
  | failing {row failure taken} : row.work = job.work → failure.jobId = row.id →
      row.status = .failed → row.WantsRetry failure.errorKind →
      Closing job complete [.ended row, .announced row (.failed failure) taken] .underway
  | failed {row failure message taken} : row.work = job.work → failure.jobId = row.id →
      row.status = .failed → ¬ row.WantsRetry failure.errorKind →
      Closing job complete [.ended row, .announced row (.failed failure) taken]
        (.ended (.ok ⟨row, .failed failure.errorKind message false⟩))
  | retried {row failure message taken retry asked} : row.work = job.work →
      failure.jobId = row.id → row.status = .failed → row.WantsRetry failure.errorKind →
      RetryEvent.Continues retry row →
      Closing job complete [.ended row, .announced row (.failed failure) taken,
        .announced row (.retryRequested retry) asked]
        (.ended (.ok ⟨row, .failed failure.errorKind message asked⟩))

/-- What was recorded since the past is a closing. -/
def Closes (job : Job) (complete : Prop) (past now : List Deed)
    (stand : Stand (Except PublishError Execution)) (_ : Stores) : Prop :=
  ∃ closing, now = past ++ closing ∧ Closing job complete closing stand

theorem Closing.mono {job : Job} {complete weaker : Prop} {closing : List Deed}
    {stand : Stand (Except PublishError Execution)} (closes : Closing job complete closing stand)
    (weaken : weaker → complete) : Closing job weaker closing stand := by
  cases closes with
  | unsettled incomplete => exact .unsettled fun is => incomplete (weaken is)
  | broken none => exact .broken none
  | toldSuccess same forRow => exact .toldSuccess same forRow
  | toldFailure same forRow => exact .toldFailure same forRow
  | recorded same finished => exact .recorded same finished
  | succeeded same forRow status => exact .succeeded same forRow status
  | failing same forRow status wants => exact .failing same forRow status wants
  | failed same forRow status done => exact .failed same forRow status done
  | retried same forRow status wants continues =>
    exact .retried same forRow status wants continues

theorem Stores.Holds.work_eq {s : Stores} {job other : Job} (holds : s.Holds job)
    (also : s.Holds other) (sameId : other.id = job.id) : other.work = job.work := by
  obtain ⟨⟨row, found, same⟩, _⟩ := holds
  obtain ⟨⟨row', found', same'⟩, _⟩ := also
  rw [sameId, found] at found'
  cases found'
  exact same'.symm.trans same

namespace Engine

open Syndication.Action Program

variable {anyRead : Prop} {s : Stores} {past : List Deed} {job row : Job} {complete : Prop}
  {α : Type}

/-- An announcement that is tried tells its event, and all goes on as if nothing was told. -/
theorem does_of_tryAnnounce {σ : Type} {scene : Scene Records σ} {s : σ}
    {announcement : Action Records α} {about : Event → Prop} {f : Bool → Action Services Execution}
    (tells : announcement.Does scene Deed.ofRecord? (Tells row about past) past s)
    {course : List Deed → Stand (Except PublishError Execution) → σ → Prop}
    (underway : ∀ t, course past .underway t)
    (next : ∀ event taken t, event.jobId = row.id → about event →
      (f taken).Does scene.withServices Deed.of? course
        (past ++ [.announced row event taken]) t) :
    (tryAnnounce announcement >>= f).Does scene.withServices Deed.of? course past s := by
  refine Does.bind (tryAnnounce_does tells) (fun now stand last t broken is => ?_)
    fun now taken t is => ?_
  · cases broken with
    | underway =>
      obtain rfl : now = past := is
      exact underway t
    | overflown => cases is
    | failed error => cases is
  · obtain ⟨event, forRow, isAbout, rfl⟩ := is
    exact next event taken t forRow isAbout

theorem closes_of_tryAnnounce {announcement : Action Records α} {about : Event → Prop}
    {f : Bool → Action Services Execution}
    (tells : announcement.Does (Discipline.bookkeeping anyRead).scene Deed.ofRecord?
      (Tells row about past) past s)
    {course : List Deed → Stand (Except PublishError Execution) → Stores → Prop}
    (underway : ∀ t, course past .underway t)
    (next : ∀ event taken t, event.jobId = row.id → about event →
      (f taken).Does (Discipline.publishing anyRead).scene Deed.of? course
        (past ++ [.announced row event taken]) t) :
    (tryAnnounce announcement >>= f).Does (Discipline.publishing anyRead).scene Deed.of? course
      past s := does_of_tryAnnounce tells underway next

/-- Work on the records, with its contract. -/
theorem does_ensures {work : Action Records α} {post : α → Stores → Prop}
    {course : List Deed → Stand (Except PublishError α) → Stores → Prop} (sound : s.Sound)
    (does : work.Does (Discipline.bookkeeping anyRead).scene Deed.ofRecord? course past s)
    (ensures : work.Ensures (.bookkeeping anyRead) post s) :
    work.toServices.Does (Discipline.publishing anyRead).scene Deed.of?
      (fun now stand t => course now stand t ∧ (∀ value, stand = .ended (.ok value) →
        post value t) ∧ t.Sound ∧ s.Later t) past s :=
  (does.and_ensures ensures sound).toServices

theorem unseen_ensures {work : Action Records α} {post : α → Stores → Prop} (sound : s.Sound)
    (silent : work.CallsOnly RecordCall.IsSilent)
    (ensures : work.Ensures (.bookkeeping anyRead) post s) :
    work.toServices.Does (Discipline.publishing anyRead).scene Deed.of?
      (fun now stand t => now = past ∧ (∀ value, stand = .ended (.ok value) → post value t) ∧
        t.Sound ∧ s.Later t) past s :=
  does_ensures sound (Ledger.unseen_of_silent silent) ensures

theorem reportStored_closes (sound : s.Sound) (holds : s.Holds row) (same : row.work = job.work)
    (settled : complete → row.isTerminal = true) :
    (reportStored row).Does (Discipline.publishing anyRead).scene Deed.of?
      (Closes job complete past) past s := by
  unfold reportStored
  split
  · rename_i success
    have found := holds.2 (Job.isTerminal_iff.2 (by simp [success]))
    obtain ⟨post, only⟩ := sound.posted row (JobStore.mem_of_find? found) success
    refine (unseen_ensures sound (Ledger.postOf_silent row) (Ledger.postOf_ensures only)).bind
      (fun now stand last t broken is => ?_) fun now read t is => ?_
    · obtain ⟨rfl, _⟩ := is
      refine ⟨[], by simp, .broken ?_⟩
      cases broken <;> simp
    · obtain ⟨rfl, here, _⟩ := is
      obtain rfl := here read rfl
      refine closes_of_tryAnnounce (Announcement.succeeded_tells row post)
        (fun t => ⟨[], by simp, .broken (by simp)⟩) fun event taken u forRow isSuccess => ?_
      obtain ⟨success, rfl⟩ := isSuccess
      exact .pure ⟨_, rfl, .toldSuccess same forRow⟩
  · refine closes_of_tryAnnounce (Announcement.failed_tells row _ _)
      (fun t => ⟨[], by simp, .broken (by simp)⟩) fun event taken u forRow isFailure => ?_
    obtain ⟨failure, rfl, _⟩ := isFailure
    exact .pure ⟨_, rfl, .toldFailure same forRow⟩
  · rename_i pending
    refine .pure ⟨[], by simp, .unsettled fun is => ?_⟩
    exact Job.isTerminal_iff.1 (settled is) pending

/-- A move of a job to its end, and what is done after it. Nothing is recorded before the move is
answered. -/
theorem does_of_move {work : Action Records α} {moved? : α → Option Job}
    {post : α → Stores → Prop} {f : α → Action Services Execution}
    {course : List Deed → Stand (Except PublishError Execution) → Stores → Prop} (sound : s.Sound)
    (moves : work.Does (Discipline.bookkeeping anyRead).scene Deed.ofRecord? (Moves moved? past)
      past s)
    (ensures : work.Ensures (.bookkeeping anyRead) post s)
    (unmoved : ∀ stand t, (∀ execution, stand ≠ .ended (.ok execution)) → course past stand t)
    (next : ∀ answer t, t.Sound → s.Later t → post answer t →
      (f answer).Does (Discipline.publishing anyRead).scene Deed.of? course
        (past ++ (moved? answer).toList.map .ended) t) :
    (work.toServices >>= f).Does (Discipline.publishing anyRead).scene Deed.of? course past s := by
  refine (does_ensures sound moves ensures).bind (fun now stand last t broken is => ?_)
    fun now answer t is => ?_
  · obtain rfl : now = past := by cases broken <;> exact is.1
    exact unmoved last t (by cases broken <;> simp)
  · obtain ⟨moved, reached, soundT, later⟩ := is
    obtain rfl : now = past ++ (moved? answer).toList.map Deed.ended := moved
    exact next answer t soundT later (reached answer rfl)

theorem closes_unmoved (stand : Stand (Except PublishError Execution)) (t : Stores)
    (none : ∀ execution, stand ≠ .ended (.ok execution)) : Closes job complete past past stand t :=
  ⟨[], by simp, .broken none⟩

theorem completeFailure_closes (sound : s.Sound) (holds : s.Holds job) (kind : FailureKind)
    (message : String) : (completeFailure job kind message).Does
      (Discipline.publishing anyRead).scene Deed.of? (Closes job complete past) past s := by
  unfold completeFailure
  refine does_of_move sound (Ledger.fail_does job _)
    ((Ledger.fail_ensures sound holds _).and (Ledger.fail_finishes sound holds _)) closes_unmoved
    fun answer t soundT later contract => ?_
  obtain ⟨⟨sameId, held, ended⟩, finished⟩ := contract
  obtain ⟨row, isNew⟩ := answer
  have same : row.work = job.work := (holds.later later).work_eq held sameId
  cases isNew with
  | false =>
    simpa using reportStored_closes soundT held same fun _ => finished
  | true =>
    have status : row.status = .failed := (ended rfl).1
    refine closes_of_tryAnnounce (Announcement.failed_tells row kind _)
      (fun u => ⟨_, rfl, .recorded same finished⟩) fun event taken u forRow isFailure => ?_
    obtain ⟨failure, rfl, rfl, _⟩ := isFailure
    split
    · rename_i wanted
      have wants : row.WantsRetry failure.errorKind := by
        simpa [Job.WantsRetry] using wanted
      refine closes_of_tryAnnounce (Announcement.retryRequested_tells row _)
        (fun v => ⟨[.ended row, .announced row (.failed failure) taken], by simp,
          .failing same forRow status wants⟩) fun event asked v _ isRetry => ?_
      obtain ⟨retry, rfl, continues⟩ := isRetry
      exact .pure ⟨[.ended row, .announced row (.failed failure) taken,
        .announced row (.retryRequested retry) asked], by simp,
          .retried same forRow status wants continues⟩
    · rename_i unwanted
      have done : ¬ row.WantsRetry failure.errorKind := by
        simpa [Job.WantsRetry] using unwanted
      exact .pure ⟨[.ended row, .announced row (.failed failure) taken], by simp,
        .failed same forRow status done⟩

theorem completeSuccess_closes (sound : s.Sound) (holds : s.Holds job) (result : PublishResult)
    (makes : complete → ∀ job id now, (Post.ofSuccess? job result id now).isSome = true) :
    (completeSuccess job result).Does (Discipline.publishing anyRead).scene Deed.of?
      (Closes job complete past) past s := by
  unfold completeSuccess
  have finishes : (Ledger.succeed job result).Ensures (.bookkeeping anyRead)
      (fun answer _ => complete → answer.1.isTerminal = true) s := by
    by_cases is : complete
    · exact (Ledger.succeed_finishes sound holds (makes is)).weaken fun _ _ finished _ => finished
    · exact (Ledger.succeed_ensures sound holds result).weaken fun _ _ _ is' => absurd is' is
  refine does_of_move sound (Ledger.succeed_does job result)
    ((Ledger.succeed_ensures sound holds result).and finishes) closes_unmoved
    fun answer t soundT later contract => ?_
  obtain ⟨⟨sameId, held, ended⟩, finished⟩ := contract
  obtain ⟨row, post⟩ := answer
  have same : row.work = job.work := (holds.later later).work_eq held sameId
  cases post with
  | none =>
    simpa using reportStored_closes soundT held same finished
  | some post =>
    have success : row.status = .success := (ended post rfl).1
    have finished : row.isTerminal = true := Job.isTerminal_iff.2 (by simp [success])
    refine closes_of_tryAnnounce (Announcement.succeeded_tells row post)
      (fun u => ⟨_, rfl, .recorded same finished⟩) fun event taken u forRow isSuccess => ?_
    obtain ⟨announced, rfl⟩ := isSuccess
    exact .pure ⟨[.ended row, .announced row (.succeeded announced) taken], by simp,
      .succeeded same forRow success⟩

/-- However an attempt ended, its job is brought to an end by a closing. -/
theorem complete_closes (sound : s.Sound) (holds : s.Holds job)
    (outcome : Except PublishError PublishResult) :
    (Engine.complete job outcome).Does (Discipline.publishing anyRead).scene Deed.of?
      (Closes job (∀ result, outcome = .ok result → result.IsComplete) past) past s := by
  cases outcome with
  | error error => exact completeFailure_closes sound holds error.kind error.message
  | ok result =>
    simp only [Engine.complete]
    split
    · rename_i success
      refine completeSuccess_closes sound holds result fun isComplete => ?_
      exact (isComplete result rfl).makes_post success
    · exact completeFailure_closes sound holds _ _

end Engine

end Syndication
