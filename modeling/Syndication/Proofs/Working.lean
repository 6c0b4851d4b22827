import Syndication.Proofs.Course

namespace Syndication

namespace Stores

/-- No row has the key of the request, if it has one. -/
def Free (s : Stores) (request : Request) : Prop :=
  ∀ key, request.idempotencyKey = some key → ∀ row ∈ s.jobs.rows, row.idempotencyKey ≠ some key

/-- The job is the last row of `t`, behind the rows of `s`, and has an identifier of its own. -/
structure Grown (s : Stores) (job : Job) (t : Stores) : Prop where
  rows : t.jobs.rows = s.jobs.rows ++ [job]
  apart : ∀ row ∈ s.jobs.rows, row.id ≠ job.id

theorem Grown.find? {s t : Stores} {job : Job} (grown : s.Grown job t) :
    t.jobs.find? job.id = some job := by
  have unknown : s.jobs.find? job.id = none := by
    simpa [JobStore.find?] using grown.apart
  simp [JobStore.find?_append grown.rows, unknown]

/-- The last row may be replaced as long as it is pending, and the others stay. -/
theorem Grown.update {s t : Stores} {row job : Job} (grown : s.Grown row t)
    (pending : row.status = .pending) (sameId : job.id = row.id) :
    ∃ jobs, t.jobs.update job = .ok (true, jobs) ∧ s.Grown job { t with jobs } := by
  have found := grown.find?
  have apart := grown.apart
  rw [← sameId] at found apart
  refine ⟨⟨JobStore.replace job t.jobs.rows, t.jobs.updates + 1⟩, ?_, ?_, apart⟩
  · simp [JobStore.update, found, Job.isTerminal_eq_false pending]
  · have kept := JobStore.replace_of_apart apart
    rw [JobStore.replace] at kept ⊢
    rw [grown.rows, List.map_append, kept]
    simp [sameId]

end Stores

/-- The result says what its post is called on the platform, and where it is. -/
def PublishResult.NamesPost (result : PublishResult) : Prop :=
  result.platformPostId.isSome = true ∧ result.permalink.isSome = true

theorem PublishResult.IsComplete.namesPost {result : PublishResult} (complete : result.IsComplete)
    (success : result.success = true) : result.NamesPost := by
  rcases complete with ⟨_, _, rfl⟩ | ⟨_, _, rfl⟩
  · exact ⟨rfl, rfl⟩
  · cases success

/-- A success has a post exactly if it says all of the post. -/
theorem Post.isSome_ofSuccess?_iff {job : Job} {result : PublishResult} {id : PostId}
    {now : Timestamp} (success : result.success = true) :
    (Post.ofSuccess? job result id now).isSome = true ↔ result.NamesPost := by
  obtain ⟨_, platformPostId, permalink, _, _⟩ := result
  cases success
  cases platformPostId with
  | none => exact iff_of_false Bool.false_ne_true fun names => Bool.false_ne_true names.1
  | some _ =>
    cases permalink with
    | none => exact iff_of_false Bool.false_ne_true fun names => Bool.false_ne_true names.2
    | some _ => exact iff_of_true rfl ⟨rfl, rfl⟩

/-- The job is as it was made for the request, but for what has become of it. -/
def Job.MadeFor (job : Job) (budget : UInt32) (request : Request) : Prop :=
  ∃ id now, job.work = Job.ofRequest request budget id now

theorem Job.MadeFor.of_work_eq {job other : Job} {budget : UInt32} {request : Request}
    (made : job.MadeFor budget request) (same : other.work = job.work) :
    other.MadeFor budget request := by
  obtain ⟨id, now, work⟩ := made
  exact ⟨id, now, same.trans work⟩

/-- Records that work, with nobody else there. -/
abbrev Scene.working : Scene Records Stores := .alone Stores.Works

abbrev Scene.serving : Scene Services Stores := .alone Stores.Serves

open Syndication.Action Program

variable {α β δ : Type} {past : List δ} {s : Stores}

namespace Records

variable {view : Records.Exchange → Option δ}

theorem now_comes : (Action.always now).Does .working view (Comes fun _ t => t = s) past s := by
  refine .always (.ask_alone (I := Records) .now trivial fun time t answered => ?_)
  exact answered.1

theorem freshId_comes : (Action.always freshId).Does .working view
    (Comes fun id t => t = s ∧ ∀ row ∈ s.jobs.rows, row.id ≠ ⟨id⟩) past s := by
  refine .always (.ask_alone (I := Records) .freshId trivial fun id t answered => ?_)
  exact answered

theorem insertJob_comes {job : Job} {jobs : JobStore} (inserted : s.jobs.insert job = .ok jobs) :
    (Action.always (insertJob job)).Does .working view
      (Comes fun answer t => answer = .ok () ∧ t = { s with jobs }) past s := by
  refine .always (.ask_alone (I := Records) (.insertJob job) trivial fun answer t answered => ?_)
  cases answer with
  | ok _ =>
    obtain ⟨⟨_, same, rfl⟩, _⟩ := answered
    cases inserted.symm.trans same
    exact ⟨rfl, rfl⟩
  | error fault => cases inserted.symm.trans answered.2

theorem updateJob_comes {job : Job} {written : Bool} {jobs : JobStore}
    (updated : s.jobs.update job = .ok (written, jobs)) :
    (Action.persisted (updateJob job)).Does .working view
      (Comes fun isNew t => isNew = written ∧ t = { s with jobs }) past s := by
  refine .persisted (.ask_alone (I := Records) (.updateJob job) trivial fun answer t answered => ?_)
  cases answer with
  | ok isNew =>
    obtain ⟨⟨_, same, rfl⟩, _⟩ := answered
    cases updated.symm.trans same
    exact ⟨rfl, rfl⟩
  | error fault => cases updated.symm.trans answered.2

/-- Storing a post leaves the jobs as they are, and is refused for an earlier post only. -/
theorem insertPost_comes (post : Post) : (Action.always (insertPost post)).Does .working view
    (Comes fun answer t => t.jobs = s.jobs ∧ match answer with
      | .ok _ => t.posts.find? post.jobId = some post
      | .error fault => fault.isDuplicate = true ∧ (t.posts.find? post.jobId).isSome = true) past
      s := by
  refine .always (.ask_alone (I := Records) (.insertPost post) trivial fun answer t answered => ?_)
  cases answer with
  | ok _ =>
    obtain ⟨⟨_, inserted, rfl⟩, _⟩ := answered
    exact ⟨rfl, Stores.find?_of_eq (PostStore.of_insert inserted)⟩
  | error fault =>
    obtain ⟨⟨_, rfl⟩, refused⟩ := answered
    exact ⟨rfl, PostStore.isDuplicate_of_insert refused, PostStore.insert_eq_error refused⟩

theorem findJob_comes (id : JobId) : (Action.persisted (findJob id)).Does .working view
    (Comes fun found t => found = s.jobs.find? id ∧ t = s) past s := by
  refine .persisted (.ask_alone (I := Records) (.findJob id) trivial fun found t answered => ?_)
  cases found with
  | ok row => exact answered.1
  | error fault => exact answered.2

theorem findJobByKey_comes (key : String) :
    (Action.persisted (findJobByKey key)).Does .working view
      (Comes fun found t => found = s.jobs.findByKey? key ∧ t = s) past s := by
  refine .persisted (.ask_alone (I := Records) (.findJobByKey key) trivial
    fun found t answered => ?_)
  cases found with
  | ok row => exact answered.1
  | error fault => exact answered.2

theorem findPost_comes (job : JobId) : (Action.persisted (findPost job)).Does .working view
    (Comes fun found t => found = s.posts.find? job ∧ t = s) past s := by
  refine .persisted (.ask_alone (I := Records) (.findPost job) trivial fun found t answered => ?_)
  cases found with
  | ok post => exact answered.1
  | error fault => exact answered.2

theorem send_comes (envelope : Envelope) : (Action.delivered (send envelope)).Does .working view
    (Comes fun _ t => t = s) past s := by
  refine .delivered (.ask_alone (I := Records) (.send envelope) trivial
    fun answer t answered => ?_)
  cases answer with
  | ok _ => exact answered.1
  | error fault => exact answered.2

end Records

namespace Ledger

variable {view : Records.Exchange → Option δ}

theorem insertNew_comes (budget : UInt32) {request : Request} (free : s.Free request) :
    (insertNew budget request).Does .working view (Comes fun job t =>
      s.Grown job t ∧ job.MadeFor budget request ∧ job.status = .pending) past s := by
  unfold insertNew
  refine Records.freshId_comes.comes_bind fun past id t is => ?_
  obtain ⟨rfl, apart⟩ := is
  refine Records.now_comes.comes_bind fun past now t is => ?_
  obtain rfl := is
  have inserted : t.jobs.insert (Job.ofRequest request budget ⟨id⟩ now) = .ok _ :=
    JobStore.insert_of_new apart free
  refine (Records.insertJob_comes inserted).comes_bind fun past answer u is => ?_
  obtain ⟨rfl, rfl⟩ := is
  exact .pure ⟨⟨rfl, apart⟩, ⟨⟨id⟩, now, rfl⟩, rfl⟩

theorem validate_comes {request : Request} (valid : request.validate = .ok ()) :
    (Action.ofExcept (I := Records) request.validate).Does .working view
      (Comes fun _ t => t = s) past s := by
  rw [valid]
  exact .ofExcept rfl

/-- A valid request whose key is free gets a job of its own. -/
theorem openJob_comes (budget : UInt32) {request : Request} (valid : request.validate = .ok ())
    (free : s.Free request) : (openJob budget request).Does .working view (Comes fun job t =>
      s.Grown job t ∧ job.MadeFor budget request ∧ job.status = .pending) past s := by
  unfold openJob
  refine (validate_comes valid).comes_bind fun past _ t is => ?_
  obtain rfl := is
  split
  · exact insertNew_comes budget free
  · rename_i key has
    have unknown : t.jobs.findByKey? key = none := by
      simpa [JobStore.findByKey?] using free key has
    refine (Records.findJobByKey_comes key).comes_bind fun past found u is => ?_
    obtain ⟨rfl, rfl⟩ := is
    rw [unknown]
    exact insertNew_comes budget free

/-- A valid request whose key is taken comes to the row that has it, and writes nothing. -/
theorem openJob_comes_back (budget : UInt32) {request : Request} {key : String} {row : Job}
    (valid : request.validate = .ok ()) (has : request.idempotencyKey = some key)
    (found : s.jobs.findByKey? key = some row) (fits : row.matchesRequest request = true) :
    (openJob budget request).Does .working view (Comes fun job t => job = row ∧ t = s) past s := by
  unfold openJob
  refine (validate_comes valid).comes_bind fun past _ t is => ?_
  obtain rfl := is
  simp only [has]
  refine (Records.findJobByKey_comes key).comes_bind fun past read u is => ?_
  obtain ⟨rfl, rfl⟩ := is
  simp only [found, reuse, fits, if_true]
  exact .ofExcept ⟨rfl, rfl⟩

variable {t : Stores} {row : Job}

theorem start_comes (grown : s.Grown row t) (pending : row.status = .pending) :
    (start row).Does .working view (Comes fun job u =>
      s.Grown job u ∧ job.work = row.work ∧ job.status = .pending) past t := by
  unfold start
  refine Records.now_comes.comes_bind fun past now u is => ?_
  obtain rfl := is
  rcases row.markStarted_eq now with marked | ⟨started, marked, same, status⟩
  · simp only [marked]
    exact .pure ⟨grown, rfl, pending⟩
  · simp only [marked]
    obtain ⟨jobs, updated, regrown⟩ := grown.update pending (Job.id_eq_of_work_eq same)
    refine (Records.updateJob_comes updated).comes_bind fun past written v is => ?_
    obtain ⟨rfl, rfl⟩ := is
    exact .pure ⟨regrown, same, status⟩

theorem fail_comes (grown : s.Grown row t) (pending : row.status = .pending) (message : String) :
    (fail row message).Does .working view (Comes fun answer u =>
      answer.2 = true ∧ s.Grown answer.1 u ∧ answer.1.work = row.work ∧
        answer.1.isTerminal = true) past t := by
  unfold fail
  refine Records.now_comes.comes_bind fun past now u is => ?_
  obtain rfl := is
  rcases row.markFailure_eq message now with marked | ⟨failed, marked, same, status, _⟩
  · exact absurd pending (Job.isTerminal_iff.1 (Job.isTerminal_of_markFailure marked))
  · simp only [marked]
    obtain ⟨jobs, updated, regrown⟩ := grown.update pending (Job.id_eq_of_work_eq same)
    refine (Records.updateJob_comes updated).comes_bind fun past written v is => ?_
    obtain ⟨rfl, rfl⟩ := is
    exact .pure ⟨rfl, regrown, same, Job.isTerminal_iff.2 (by simp [status])⟩

/-- What is recorded is the post that is stored for the job. -/
theorem recordPost_comes (post : Post) : (recordPost post).Does .working view
    (Comes fun recorded u => u.jobs = s.jobs ∧ u.posts.find? post.jobId = some recorded) past
      s := by
  unfold recordPost
  refine (Records.insertPost_comes post).comes_bind fun past answer u is => ?_
  obtain ⟨kept, known⟩ := is
  cases answer with
  | ok _ => exact .pure ⟨kept, known⟩
  | error fault =>
    obtain ⟨duplicate, posted⟩ := known
    obtain ⟨earlier, stored⟩ := Option.isSome_iff_exists.1 posted
    simp only [duplicate, if_true]
    refine (Records.findPost_comes post.jobId).comes_bind fun past found v is => ?_
    obtain ⟨rfl, rfl⟩ := is
    refine .pure ⟨kept, ?_⟩
    rw [stored, Option.getD_some]

/-- The row of a job is read as it is. -/
theorem stored_comes {id : JobId} (found : s.jobs.find? id = some row) :
    (stored id).Does .working view (Comes fun job u => job = row ∧ u = s) past s := by
  unfold stored
  refine (Records.findJob_comes id).comes_bind fun past read u is => ?_
  obtain ⟨rfl, rfl⟩ := is
  simp only [found]
  exact .pure ⟨rfl, rfl⟩

/-- What the move of a job to success comes to, when the job has this row. -/
inductive SuccessOf (job row : Job) (result : PublishResult) (s : Stores) :
    Job × Option Post → Stores → Prop
  | finishedHere : job.isTerminal = true → SuccessOf job row result s (job, none) s
  | finishedThere : row.isTerminal = true → SuccessOf job row result s (row, none) s
  | unrecorded : job.isTerminal = false → row.isTerminal = false → ¬ result.NamesPost →
      SuccessOf job row result s (job, none) s
  | moved {done : Job} {post : Post} {jobs : JobStore} {posts : PostStore} :
      result.NamesPost → done.work = job.work → done.status = .success →
      s.jobs.update done = .ok (true, jobs) → posts.find? job.id = some post →
      SuccessOf job row result s (done, some post) ⟨jobs, posts⟩

theorem succeed_answers {job : Job} (found : s.jobs.find? job.id = some row)
    {result : PublishResult} (success : result.success = true) :
    (succeed job result).Does .working view (Comes (SuccessOf job row result s)) past s := by
  unfold succeed
  simp only [success, if_true]
  refine Records.now_comes.comes_bind fun past now u is => ?_
  obtain rfl := is
  rcases job.markSuccess_eq now with marked | ⟨candidate, marked, same, status⟩
  · simp only [marked]
    exact .pure (.finishedHere (Job.isTerminal_of_markSuccess marked))
  · have sameId : candidate.id = job.id := Job.id_eq_of_work_eq same
    simp only [marked, if_true]
    refine (stored_comes found).comes_bind fun past read v is => ?_
    obtain ⟨rfl, rfl⟩ := is
    cases finished : read.isTerminal with
    | true => exact .pure (.finishedThere finished)
    | false =>
      simp only [Bool.false_eq_true, if_false]
      refine Records.freshId_comes.comes_bind fun past id w is => ?_
      obtain ⟨rfl, _⟩ := is
      cases made : Post.ofSuccess? candidate result ⟨id⟩ now with
      | none =>
        have unnamed : ¬ result.NamesPost := by
          rw [← Post.isSome_ofSuccess?_iff success, made]
          exact Bool.false_ne_true
        exact .pure (.unrecorded (Job.isTerminal_eq_false_of_markSuccess marked) finished unnamed)
      | some post =>
        have names : result.NamesPost := by
          rw [← Post.isSome_ofSuccess?_iff success, made]
          rfl
        have forJob : post.jobId = job.id := (Post.ofSuccess?_eq_some made).1.trans sameId
        simp only [finish]
        refine (recordPost_comes post).comes_bind fun past recorded w is => ?_
        obtain ⟨kept, stored⟩ := is
        obtain ⟨jobs, updated⟩ := JobStore.exists_update (sameId ▸ found) finished
        refine (Records.updateJob_comes (kept ▸ updated)).comes_bind fun past written x is => ?_
        obtain ⟨rfl, rfl⟩ := is
        exact .pure (.moved names same status updated (forJob ▸ stored))

theorem succeed_comes (grown : s.Grown row t) (pending : row.status = .pending)
    {result : PublishResult} (success : result.success = true) (names : result.NamesPost) :
    (succeed row result).Does .working view (Comes fun answer u =>
      answer.2.isSome = true ∧ s.Grown answer.1 u ∧ answer.1.work = row.work ∧
        answer.1.isTerminal = true) past t := by
  refine (succeed_answers grown.find? success).comes_weaken fun answer u is => ?_
  have unfinished := Job.isTerminal_eq_false pending
  cases is with
  | finishedHere finished => cases unfinished.symm.trans finished
  | finishedThere finished => cases unfinished.symm.trans finished
  | unrecorded _ _ unnamed => exact absurd names unnamed
  | @moved done post jobs posts _ same status updated =>
    obtain ⟨_, again, regrown⟩ := grown.update pending (Job.id_eq_of_work_eq same)
    cases updated.symm.trans again
    exact ⟨rfl, ⟨regrown.rows, regrown.apart⟩, same, Job.isTerminal_iff.2 (by simp [status])⟩

end Ledger

namespace Announcement

variable {view : Records.Exchange → Option δ}

theorem timeOf_comes (known : Option Timestamp) :
    (Action.always (timeOf known)).Does .working view (Comes fun _ t => t = s) past s := by
  cases known with
  | none => exact Records.now_comes
  | some time => exact .pure rfl

theorem send_comes (job : Job) (event : Event) (value : α) :
    (send job event >>= fun _ => pure value).Does .working view (Comes fun _ t => t = s) past
      s := by
  refine (Records.send_comes _).comes_bind fun past _ t is => ?_
  exact .pure is

theorem started_comes (job : Job) :
    (started job).Does .working view (Comes fun _ t => t = s) past s := by
  unfold started
  refine Records.freshId_comes.comes_bind fun past id t is => ?_
  obtain ⟨rfl, _⟩ := is
  refine (timeOf_comes _).comes_bind fun past time t is => ?_
  obtain rfl := is
  exact send_comes job _ _

theorem succeeded_comes (job : Job) (post : Post) :
    (succeeded job post).Does .working view (Comes fun _ t => t = s) past s := by
  unfold succeeded
  refine Records.freshId_comes.comes_bind fun past id t is => ?_
  obtain ⟨rfl, _⟩ := is
  exact send_comes job _ _

theorem failed_comes (job : Job) (kind : FailureKind) (message : String) :
    (failed job kind message).Does .working view (Comes fun _ t => t = s) past s := by
  unfold failed
  refine Records.freshId_comes.comes_bind fun past id t is => ?_
  obtain ⟨rfl, _⟩ := is
  refine (timeOf_comes _).comes_bind fun past time t is => ?_
  obtain rfl := is
  exact send_comes job _ _

theorem retryRequested_comes (job : Job) (reason : String) :
    (retryRequested job reason).Does .working view (Comes fun _ t => t = s) past s := by
  unfold retryRequested
  refine Records.freshId_comes.comes_bind fun past id t is => ?_
  obtain ⟨rfl, _⟩ := is
  refine Records.now_comes.comes_bind fun past time t is => ?_
  obtain rfl := is
  exact send_comes job _ _

end Announcement

end Syndication
