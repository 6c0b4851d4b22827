import Syndication.Proofs.Undisturbed

namespace Syndication

/-- Records that may fail, with nobody else there. -/
abbrev Scene.solitary : Scene Records Stores := .alone Stores.Answers

namespace Action

variable {α β δ : Type} {view : Records.Exchange → Option δ} {past : List δ} {s : Stores}

/-- An action that leaves the jobs as they are unless it comes to a value, and what this value and
the state are then. -/
def Leaves (jobs : JobStore) (post : α → Stores → Prop) (_ : List δ) :
    Stand (Except PublishError α) → Stores → Prop
  | .ended (.ok value), t => post value t
  | _, t => t.jobs = jobs

theorem Does.leaves_bind {jobs : JobStore} {mid : α → Stores → Prop} {post : β → Stores → Prop}
    {x : Action Records α} {f : α → Action Records β}
    (first : x.Does .solitary view (Leaves jobs mid) past s)
    (next : ∀ now value t, mid value t → (f value).Does .solitary view (Leaves jobs post) now t) :
    (x >>= f).Does .solitary view (Leaves jobs post) past s :=
  first.bind (fun _ _ _ _ broken is => by cases broken <;> exact is) next

end Action

open Syndication.Action Program

variable {α δ : Type} {view : Records.Exchange → Option δ} {past : List δ} {s : Stores}
  {jobs : JobStore}

namespace Records

theorem now_leaves : (Action.always now).Does .solitary view (Leaves s.jobs fun _ t => t = s) past
    s := by
  refine .always (.ask_alone (I := Records) .now rfl fun time t answered => ?_)
  exact answered

theorem freshId_leaves : (Action.always freshId).Does .solitary view
    (Leaves s.jobs fun _ t => t = s) past s := by
  refine .always (.ask_alone (I := Records) .freshId rfl fun id t answered => ?_)
  exact answered

theorem insertJob_leaves (job : Job) : (Action.always (insertJob job)).Does .solitary view
    (Leaves s.jobs fun answer t => match answer with
      | .ok _ => s.jobs.insert job = .ok t.jobs
      | .error _ => t = s) past s := by
  refine .always (.ask_alone (I := Records) (.insertJob job) rfl fun answer t answered => ?_)
  cases answer with
  | ok _ =>
    obtain ⟨jobs, inserted, rfl⟩ := answered
    exact inserted
  | error fault => exact answered

theorem updateJob_leaves (job : Job) : (Action.persisted (updateJob job)).Does .solitary view
    (Leaves s.jobs fun written t => s.jobs.update job = .ok (written, t.jobs)) past s := by
  refine .persisted (.ask_alone (I := Records) (.updateJob job) rfl fun answer t answered => ?_)
  cases answer with
  | ok written =>
    obtain ⟨jobs, updated, rfl⟩ := answered
    exact updated
  | error fault => exact congrArg Stores.jobs answered

theorem findJob_leaves (id : JobId) : (Action.persisted (findJob id)).Does .solitary view
    (Leaves s.jobs fun found t => found = s.jobs.find? id ∧ t = s) past s := by
  refine .persisted (.ask_alone (I := Records) (.findJob id) rfl fun answer t answered => ?_)
  cases answer with
  | ok found => exact answered
  | error fault => exact congrArg Stores.jobs answered

theorem findJobByKey_leaves (key : String) :
    (Action.persisted (findJobByKey key)).Does .solitary view
      (Leaves s.jobs fun found t => found = s.jobs.findByKey? key ∧ t = s) past s := by
  refine .persisted (.ask_alone (I := Records) (.findJobByKey key) rfl
    fun answer t answered => ?_)
  cases answer with
  | ok found => exact answered
  | error fault => exact congrArg Stores.jobs answered

theorem insertPost_leaves (post : Post) : (Action.always (insertPost post)).Does .solitary view
    (Leaves s.jobs fun _ t => t.jobs = s.jobs) past s := by
  refine .always (.ask_alone (I := Records) (.insertPost post) rfl fun answer t answered => ?_)
  cases answer with
  | ok _ =>
    obtain ⟨posts, _, rfl⟩ := answered
    rfl
  | error fault => exact congrArg Stores.jobs answered.2

theorem findPost_leaves (id : JobId) : (Action.persisted (findPost id)).Does .solitary view
    (Leaves s.jobs fun _ t => t.jobs = s.jobs) past s := by
  refine .persisted (.ask_alone (I := Records) (.findPost id) rfl fun answer t answered => ?_)
  cases answer with
  | ok found => exact congrArg Stores.jobs answered.2
  | error fault => exact congrArg Stores.jobs answered

theorem send_leaves (envelope : Envelope) : (Action.delivered (send envelope)).Does .solitary view
    (Leaves s.jobs fun _ t => t = s) past s := by
  refine .delivered (.ask_alone (I := Records) (.send envelope) rfl fun answer t answered => ?_)
  cases answer with
  | ok _ => exact answered
  | error fault => exact congrArg Stores.jobs answered

end Records

/-- The job is the other one but for its start stamp, and the time of its last change. -/
def Job.IsStamped (job other : Job) : Prop :=
  job = { other with startedAt := job.startedAt, updatedAt := job.updatedAt }

namespace Job.IsStamped

variable {job other : Job}

theorem refl (job : Job) : job.IsStamped job := rfl

theorem work_eq (stamped : job.IsStamped other) : job.work = other.work := by
  rw [stamped]
  rfl

theorem status_eq (stamped : job.IsStamped other) : job.status = other.status := by
  rw [stamped]

theorem markStarted (job : Job) (now : Timestamp) : (job.markStarted now).1.IsStamped job := by
  unfold Job.markStarted
  split <;> rfl

end Job.IsStamped

namespace Ledger

/-- The job that was opened for the request: the row that its key stands for, or a new one behind
the others. -/
structure Opened (budget : UInt32) (request : Request) (s : Stores) (job : Job) (t : Stores) :
    Prop where
  valid : request.validate = .ok ()
  found : t.jobs.find? job.id = some job
  key : job.idempotencyKey = request.idempotencyKey
  fits : job.matchesRequest request = true
  origin : request.idempotencyKey.isSome = true ∧ t.jobs = s.jobs ∨
    s.Grown job t ∧ ∃ id now, job = Job.ofRequest request budget id now

section

variable {budget : UInt32} {request : Request} {key : String} {row : Job} (sound : s.Sound)
  (valid : request.validate = .ok ())
include sound valid

theorem reuse_leaves (has : request.idempotencyKey = some key)
    (found : s.jobs.findByKey? key = some row) :
    (Action.ofExcept (reuse row request key)).Does .solitary view
      (Leaves s.jobs (Opened budget request s)) past s := by
  refine .ofExcept ?_
  cases reused : reuse row request key with
  | error error => exact rfl
  | ok job =>
    obtain ⟨rfl, fits⟩ := reuse_eq_ok reused
    obtain ⟨stored, hasKey⟩ := sound.of_findByKey? found
    exact ⟨valid, stored, hasKey.trans has.symm, fits, .inl ⟨by simp [has], rfl⟩⟩

theorem yieldTo_leaves (has : request.idempotencyKey = some key) (fault : ServiceFault) :
    (yieldTo request key fault).Does .solitary view
      (Leaves s.jobs (Opened budget request s)) past s := by
  unfold yieldTo
  refine (Records.findJobByKey_leaves key).leaves_bind fun now found t is => ?_
  obtain ⟨rfl, rfl⟩ := is
  cases found : t.jobs.findByKey? key with
  | some winner => exact reuse_leaves sound valid has found
  | none => exact .throw rfl

theorem insertNew_leaves : (insertNew budget request).Does .solitary view
    (Leaves s.jobs (Opened budget request s)) past s := by
  unfold insertNew
  refine Records.freshId_leaves.leaves_bind fun past id t is => ?_
  obtain rfl := is
  refine Records.now_leaves.leaves_bind fun past now t is => ?_
  obtain rfl := is
  refine (Records.insertJob_leaves _).leaves_bind fun past answer u is => ?_
  cases answer with
  | ok _ =>
    obtain ⟨appended, apart, _⟩ := JobStore.insert_eq_ok is
    have grown : t.Grown (Job.ofRequest request budget ⟨id⟩ now) u := ⟨appended, apart⟩
    exact .pure ⟨valid, grown.find?, rfl, Job.matchesRequest_of_work_eq rfl,
      .inr ⟨grown, _, _, rfl⟩⟩
  | error fault =>
    obtain rfl := is
    simp only
    split
    · rename_i key has
      split
      · exact yieldTo_leaves sound valid has fault
      · exact .throw rfl
    · exact .throw rfl

end

theorem openJob_leaves {budget : UInt32} {request : Request} (sound : s.Sound) :
    (openJob budget request).Does .solitary view (Leaves s.jobs (Opened budget request s)) past
      s := by
  unfold openJob
  have checks : (Action.ofExcept request.validate : Action Records Unit).Does .solitary view
      (Leaves s.jobs fun _ t => request.validate = .ok () ∧ t = s) past s := by
    refine .ofExcept ?_
    cases request.validate with
    | ok _ => exact ⟨rfl, rfl⟩
    | error error => rfl
  refine checks.leaves_bind fun past _ t is => ?_
  obtain ⟨valid, rfl⟩ := is
  split
  · exact insertNew_leaves sound valid
  · rename_i key has
    refine (Records.findJobByKey_leaves key).leaves_bind fun past found u is => ?_
    obtain ⟨rfl, rfl⟩ := is
    cases found : u.jobs.findByKey? key with
    | some existing => exact reuse_leaves sound valid has found
    | none => exact insertNew_leaves sound valid

/-- The job that was started: its row, with a start stamp. -/
structure Started (s : Stores) (job started : Job) (t : Stores) : Prop where
  found : t.jobs.find? started.id = some started
  stamped : started.IsStamped job
  rows : t.jobs = s.jobs ∧ started = job ∨ t.jobs.rows = JobStore.replace started s.jobs.rows

variable {job : Job}

/-- With nobody else there, an update of a pending row is written. -/
theorem update_written {candidate : Job} {written : Bool}
    (found : s.jobs.find? job.id = some job) (pending : job.status = .pending)
    (sameId : candidate.id = job.id) (updated : s.jobs.update candidate = .ok (written, jobs)) :
    written = true ∧ jobs.rows = JobStore.replace candidate s.jobs.rows := by
  obtain ⟨row, foundRow, ⟨_, finished, _⟩ | ⟨same, _, replaced⟩⟩ := JobStore.update_eq_ok updated
  · rw [sameId, found] at foundRow
    cases foundRow
    exact absurd pending (Job.isTerminal_iff.1 finished)
  · exact ⟨same, replaced⟩

theorem stored_leaves (found : s.jobs.find? job.id = some job) :
    (stored job.id).Does .solitary view (Leaves s.jobs fun row t => row = job ∧ t = s) past s := by
  unfold stored
  refine (Records.findJob_leaves job.id).leaves_bind fun past read t is => ?_
  obtain ⟨rfl, rfl⟩ := is
  simp only [found]
  exact .pure ⟨rfl, rfl⟩

theorem recordPost_leaves (post : Post) : (recordPost post).Does .solitary view
    (Leaves s.jobs fun _ t => t.jobs = s.jobs) past s := by
  unfold recordPost
  refine (Records.insertPost_leaves post).leaves_bind fun past answer t kept => ?_
  cases answer with
  | ok _ => exact .pure kept
  | error fault =>
    simp only
    split
    · rw [← kept]
      exact (Records.findPost_leaves post.jobId).leaves_bind fun past found u kept => .pure kept
    · exact .throw kept

section

variable (found : s.jobs.find? job.id = some job) (pending : job.status = .pending)
include found pending

theorem start_leaves : (start job).Does .solitary view (Leaves s.jobs (Started s job)) past s := by
  unfold start
  refine Records.now_leaves.leaves_bind fun past now t is => ?_
  obtain rfl := is
  rcases job.markStarted_eq now with marked | ⟨started, marked, same, _⟩
  · simp only [marked]
    exact .pure ⟨found, .refl job, .inl ⟨rfl, rfl⟩⟩
  · have stamped : started.IsStamped job := by
      simpa [marked] using Job.IsStamped.markStarted job now
    simp only [marked]
    refine (Records.updateJob_leaves started).leaves_bind fun past written u updated => ?_
    obtain ⟨rfl, replaced⟩ := update_written found pending (Job.id_eq_of_work_eq same) updated
    exact .pure ⟨JobStore.find?_of_update updated, stamped, .inr replaced⟩

/-- A pending row is failed by this call, or not at all. -/
theorem fail_leaves (message : String) : (fail job message).Does .solitary view
    (Leaves s.jobs fun answer _ => answer.2 = true) past s := by
  unfold fail
  refine Records.now_leaves.leaves_bind fun past now t is => ?_
  obtain rfl := is
  rcases job.markFailure_eq message now with marked | ⟨failed, marked, same, _⟩
  · exact absurd pending (Job.isTerminal_iff.1 (Job.isTerminal_of_markFailure marked))
  · simp only [marked]
    refine (Records.updateJob_leaves failed).leaves_bind fun past written u updated => ?_
    obtain ⟨rfl, _⟩ := update_written found pending (Job.id_eq_of_work_eq same) updated
    exact .pure rfl

/-- A pending row succeeds by this call, or is pending still. -/
theorem succeed_leaves (result : PublishResult) : (succeed job result).Does .solitary view
    (Leaves s.jobs fun answer t => answer.2 = none → answer.1 = job ∧ t.jobs = s.jobs) past s := by
  unfold succeed
  split
  · refine Records.now_leaves.leaves_bind fun past now t is => ?_
    obtain rfl := is
    rcases job.markSuccess_eq now with marked | ⟨candidate, marked, same, _⟩
    · exact absurd pending (Job.isTerminal_iff.1 (Job.isTerminal_of_markSuccess marked))
    · simp only [marked]
      refine (stored_leaves found).leaves_bind fun past row t is => ?_
      obtain ⟨rfl, rfl⟩ := is
      simp only [Job.isTerminal_eq_false pending]
      refine Records.freshId_leaves.leaves_bind fun past id t is => ?_
      obtain rfl := is
      split
      · rename_i post _
        unfold finish
        refine (recordPost_leaves post).leaves_bind fun past recorded u kept => ?_
        rw [← kept] at found ⊢
        refine (Records.updateJob_leaves candidate).leaves_bind fun past written v updated => ?_
        obtain ⟨rfl, _⟩ := update_written found pending (Job.id_eq_of_work_eq same) updated
        exact .pure nofun
      · exact .pure fun _ => ⟨rfl, rfl⟩
  · exact .throw rfl

end

end Ledger

namespace Announcement

theorem started_leaves (job : Job) :
    (started job).Does .solitary view (Leaves s.jobs fun _ t => t = s) past s := by
  unfold started
  refine Records.freshId_leaves.leaves_bind fun past id t is => ?_
  obtain rfl := is
  have timed : (Action.always (timeOf job.startedAt)).Does .solitary view
      (Leaves t.jobs fun _ u => u = t) past t := by
    cases job.startedAt with
    | none => exact Records.now_leaves
    | some time => exact .pure rfl
  refine timed.leaves_bind fun past time t is => ?_
  obtain rfl := is
  exact (Records.send_leaves _).leaves_bind fun past _ u is => .pure is

end Announcement

end Syndication
