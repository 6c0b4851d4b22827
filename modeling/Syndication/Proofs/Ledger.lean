import Syndication.Ledger
import Syndication.Proofs.Stores

namespace Syndication

variable {anyRead : Prop} {s : Stores}

namespace Records

theorem now_meets : now.Meets (.bookkeeping anyRead) (fun _ _ => True) s :=
  fun _ _ _ => ⟨trivial, fun _ _ _ => trivial⟩

theorem freshId_meets : freshId.Meets (.bookkeeping anyRead) (fun _ _ => True) s :=
  fun _ _ _ => ⟨trivial, fun _ _ _ => trivial⟩

theorem findJob_ensures (id : JobId) :
    (Action.persisted (findJob id)).Ensures (.bookkeeping anyRead)
      (fun found t => t.jobs.find? id = found) s := by
  refine .persisted fun t _ _ => ⟨trivial, ?_⟩
  rintro _ u answered found rfl
  obtain ⟨rfl, rfl⟩ := answered
  rfl

theorem findJobByKey_ensures (key : String) :
    (Action.persisted (findJobByKey key)).Ensures (.bookkeeping anyRead)
      (fun found t => t.jobs.findByKey? key = found) s := by
  refine .persisted fun t _ _ => ⟨trivial, ?_⟩
  rintro _ u answered found rfl
  obtain ⟨rfl, rfl⟩ := answered
  rfl

theorem insertJob_meets {job : Job} (fresh : job.IsFresh) :
    (insertJob job).Meets (.bookkeeping anyRead)
      (fun answer t => answer = .ok () →
        t.jobs.find? job.id = some job ∧ s.jobs.find? job.id = none) s := by
  refine fun t later _ => ⟨fresh, ?_⟩
  rintro _ u answered rfl
  obtain ⟨jobs, inserted, rfl⟩ := answered
  obtain ⟨appended, newId, _⟩ := JobStore.insert_eq_ok inserted
  have unknown : t.jobs.find? job.id = none := by
    simpa [JobStore.find?] using newId
  refine ⟨by simp [JobStore.find?_append appended, unknown], later.unknown unknown⟩

/-- A post that is not accepted as new, but as a duplicate, is stored for its job already. -/
theorem insertPost_meets {post : Post} (owned : ∃ row, s.jobs.find? post.jobId = some row ∧
      row.accountId = post.accountId ∧ row.platform = post.platform) :
    (insertPost post).Meets (.bookkeeping anyRead)
      (fun answer t => match answer with
        | .ok _ => t.posts.of post.jobId = [post]
        | .error fault =>
          fault.isDuplicate = true → ∃ earlier, t.posts.of post.jobId = [earlier]) s := by
  refine fun t later sound => ⟨?_, fun answer u answered => ?_⟩
  · obtain ⟨row, found, account, platform⟩ := owned
    obtain ⟨row', found', same, _⟩ := later.row found
    exact ⟨row', found', (Job.accountId_eq_of_work_eq same).trans account,
      (Job.platform_eq_of_work_eq same).trans platform⟩
  · cases answer with
    | ok _ =>
      obtain ⟨posts, inserted, rfl⟩ := answered
      exact PostStore.of_insert inserted
    | error fault =>
      obtain ⟨known, rfl⟩ := answered
      intro duplicate
      obtain ⟨earlier, found⟩ := Option.isSome_iff_exists.1 (known duplicate)
      exact ⟨earlier, sound.of_eq found⟩

theorem findPost_ensures {id : JobId} {post : Post} (only : s.posts.of id = [post]) :
    (Action.persisted (findPost id)).Ensures (.bookkeeping anyRead)
      (fun found _ => found = some post) s := by
  refine .persisted fun t later _ => ⟨.inl ⟨post, later.post only⟩, ?_⟩
  rintro _ u answered found rfl
  obtain ⟨rfl, rfl⟩ := answered
  exact Stores.find?_of_eq (later.post only)

theorem updateJob_ensures {job : Job} (hasRow : s.HasRow job)
    (posted : job.status = .success → ∃ post, s.posts.of job.id = [post])
    (explained : job.status = .failed → job.lastError.isSome = true) :
    (Action.persisted (updateJob job)).Ensures (.bookkeeping anyRead)
      (fun written t => written = true → t.jobs.find? job.id = some job) s := by
  refine .persisted fun t later _ => ⟨⟨hasRow.later later, fun success => ?_, explained⟩, ?_⟩
  · obtain ⟨post, only⟩ := posted success
    exact ⟨post, later.post only⟩
  · rintro _ u answered _ rfl rfl
    obtain ⟨jobs, updated, rfl⟩ := answered
    exact JobStore.find?_of_update updated

/-- An update that is not written finds the job finished. -/
theorem updateJob_overtaken {job : Job} (hasRow : s.HasRow job)
    (posted : job.status = .success → ∃ post, s.posts.of job.id = [post])
    (explained : job.status = .failed → job.lastError.isSome = true) :
    (Action.persisted (updateJob job)).Ensures (.bookkeeping anyRead)
      (fun written t => written = false →
        ∃ row, t.jobs.find? job.id = some row ∧ row.isTerminal = true) s := by
  refine .persisted fun t later _ => ⟨⟨hasRow.later later, fun success => ?_, explained⟩, ?_⟩
  · obtain ⟨post, only⟩ := posted success
    exact ⟨post, later.post only⟩
  · rintro _ u answered _ rfl rfl
    obtain ⟨jobs, updated, rfl⟩ := answered
    obtain ⟨row, found, ⟨_, finished, rfl⟩ | ⟨impossible, _⟩⟩ := JobStore.update_eq_ok updated
    · exact ⟨row, found, finished⟩
    · cases impossible

theorem send_ensures {job : Job} {event : Event} (about : event.jobId = job.id)
    (agrees : event.Agrees s) :
    (Announcement.send job event).Ensures (.bookkeeping anyRead) (fun _ _ => True) s :=
  .delivered fun _ later _ =>
    ⟨⟨job, event, rfl, about, agrees.later later⟩, fun _ _ _ _ _ => trivial⟩

end Records

namespace Ledger

theorem stored_ensures (sound : s.Sound) (id : JobId) :
    (stored id).Ensures (.bookkeeping anyRead)
      (fun job t => t.jobs.find? id = some job) s := by
  unfold stored
  refine (Records.findJob_ensures id).bind sound fun found t _ _ here => ?_
  cases found with
  | some job => exact .pure here
  | none => exact .throw

theorem reuse_eq_ok {existing job : Job} {request : Request} {key : String}
    (reused : reuse existing request key = .ok job) :
    job = existing ∧ existing.matchesRequest request = true := by
  unfold reuse at reused
  split at reused
  · rename_i fits
    cases reused
    exact ⟨rfl, fits⟩
  · cases reused

theorem yieldTo_ensures (sound : s.Sound) (request : Request) (key : String)
    (fault : ServiceFault) :
    (yieldTo request key fault).Ensures (.bookkeeping anyRead)
      (fun job t => t.jobs.find? job.id = some job ∧ job.idempotencyKey = some key) s := by
  unfold yieldTo
  refine (Records.findJobByKey_ensures key).bind sound fun found t soundT _ here => ?_
  cases found with
  | some winner =>
    refine .ofExcept fun job reused => ?_
    obtain ⟨rfl, _⟩ := reuse_eq_ok reused
    exact soundT.of_findByKey? here
  | none => exact .throw

/-- A new job has an identifier that is new; otherwise the row that has the key is answered. -/
theorem insertNew_ensures (sound : s.Sound) (budget : UInt32) {request : Request}
    (valid : request.validate = .ok ()) :
    (insertNew budget request).Ensures (.bookkeeping anyRead)
      (fun job t => t.jobs.find? job.id = some job ∧
        (s.jobs.find? job.id = none ∨ job.idempotencyKey.isSome = true)) s := by
  unfold insertNew
  refine (Action.Ensures.always Records.freshId_meets).bind sound fun id t soundT later _ => ?_
  refine (Action.Ensures.always Records.now_meets).bind soundT fun now u soundU laterU _ => ?_
  have fresh : (Job.ofRequest request budget ⟨id⟩ now).IsFresh := ⟨_, _, _, _, valid, rfl⟩
  refine (Action.Ensures.always (Records.insertJob_meets fresh)).bind soundU
    fun answer v soundV _ inserted => ?_
  cases answer with
  | ok _ =>
    obtain ⟨stored, unknown⟩ := inserted rfl
    exact .pure ⟨stored, .inl ((later.trans laterU).unknown unknown)⟩
  | error fault =>
    simp only
    split
    · split
      · refine (yieldTo_ensures soundV request _ fault).weaken fun job w => ?_
        rintro ⟨stored, key⟩
        exact ⟨stored, .inr (by simp [key])⟩
      · exact .throw
    · exact .throw

/-- Opening a job answers its row. A job that was there before is opened for its key only. -/
theorem openJob_ensures (sound : s.Sound) (budget : UInt32) (request : Request) :
    (openJob budget request).Ensures (.bookkeeping anyRead)
      (fun job t => t.jobs.find? job.id = some job ∧
        (s.jobs.find? job.id = none ∨ job.idempotencyKey.isSome = true)) s := by
  unfold openJob
  have valid : (Action.ofExcept (I := Records) request.validate).Ensures (.bookkeeping anyRead)
      (fun _ _ => request.validate = .ok ()) s := .ofExcept fun _ is => is
  refine valid.bind sound fun _ t soundT later valid => ?_
  have earlier : ∀ {u : Stores} {job : Job}, t.Later u → u.jobs.find? job.id = none ∨
      job.idempotencyKey.isSome = true →
        s.jobs.find? job.id = none ∨ job.idempotencyKey.isSome = true :=
    fun laterU => Or.imp_left (later.trans laterU).unknown
  split
  · refine (insertNew_ensures soundT budget valid).weaken fun job u => ?_
    exact And.imp_right (earlier (.refl t))
  · rename_i key _
    refine (Records.findJobByKey_ensures key).bind soundT fun found u soundU laterU here => ?_
    cases found with
    | some existing =>
      refine .ofExcept fun job reused => ?_
      obtain ⟨rfl, _⟩ := reuse_eq_ok reused
      obtain ⟨stored, key⟩ := soundU.of_findByKey? here
      exact ⟨stored, .inr (by simp [key])⟩
    | none =>
      refine (insertNew_ensures soundU budget valid).weaken fun job v => ?_
      exact And.imp_right (earlier laterU)

theorem insertNew_key (sound : s.Sound) (budget : UInt32) {request : Request}
    (valid : request.validate = .ok ()) :
    (insertNew budget request).Ensures (.bookkeeping anyRead)
      (fun job _ => job.idempotencyKey = request.idempotencyKey) s := by
  unfold insertNew
  refine (Action.Ensures.always Records.freshId_meets).bind sound fun id t soundT _ _ => ?_
  refine (Action.Ensures.always Records.now_meets).bind soundT fun now u soundU _ _ => ?_
  have fresh : (Job.ofRequest request budget ⟨id⟩ now).IsFresh := ⟨_, _, _, _, valid, rfl⟩
  refine (Action.Ensures.always (Records.insertJob_meets fresh)).bind soundU
    fun answer v soundV _ _ => ?_
  cases answer with
  | ok _ => exact .pure rfl
  | error fault =>
    simp only
    split
    · rename_i key has
      split
      · refine (yieldTo_ensures soundV request key fault).weaken fun job w opened => ?_
        rw [opened.2, has]
      · exact .throw
    · exact .throw

/-- A job is opened by the key of its request. -/
theorem openJob_key (sound : s.Sound) (budget : UInt32) (request : Request) :
    (openJob budget request).Ensures (.bookkeeping anyRead)
      (fun job _ => job.idempotencyKey = request.idempotencyKey) s := by
  unfold openJob
  have valid : (Action.ofExcept (I := Records) request.validate).Ensures (.bookkeeping anyRead)
      (fun _ _ => request.validate = .ok ()) s := .ofExcept fun _ is => is
  refine valid.bind sound fun _ t soundT _ valid => ?_
  split
  · exact insertNew_key soundT budget valid
  · rename_i key has
    refine (Records.findJobByKey_ensures key).bind soundT fun found u soundU _ here => ?_
    cases found with
    | some existing =>
      refine .ofExcept fun job reused => ?_
      obtain ⟨rfl, _⟩ := reuse_eq_ok reused
      rw [(soundU.of_findByKey? here).2, has]
    | none => exact insertNew_key soundU budget valid

theorem start_ensures (sound : s.Sound) {job : Job} (holds : s.Holds job) :
    (start job).Ensures (.bookkeeping anyRead)
      (fun started t => started.id = job.id ∧ t.Holds started) s := by
  unfold start
  refine (Action.Ensures.always Records.now_meets).bind sound fun now t soundT later _ => ?_
  have holdsT := holds.later later
  rcases job.markStarted_eq now with marked | ⟨started, marked, same, pending⟩
  · simp only [marked]
    exact .pure ⟨rfl, holdsT⟩
  · simp only [marked]
    refine (Records.updateJob_ensures (holdsT.1.of_work_eq same) (by simp [pending])
      (by simp [pending])).bind soundT fun written u soundU _ put => ?_
    have sameId := Job.id_eq_of_work_eq same
    cases written with
    | true => exact .pure ⟨sameId, Stores.holds_of_find? (put rfl)⟩
    | false =>
      refine (stored_ensures soundU job.id).weaken fun row v found => ?_
      exact ⟨JobStore.id_of_find? found, Stores.holds_of_find? found⟩

theorem recordPost_ensures (sound : s.Sound) {post : Post}
    (owned : ∃ row, s.jobs.find? post.jobId = some row ∧ row.accountId = post.accountId ∧
      row.platform = post.platform) :
    (recordPost post).Ensures (.bookkeeping anyRead)
      (fun recorded t => t.posts.of post.jobId = [recorded]) s := by
  unfold recordPost
  refine (Action.Ensures.always (Records.insertPost_meets owned)).bind sound
    fun answer t soundT _ inserted => ?_
  cases answer with
  | ok _ => exact .pure inserted
  | error fault =>
    simp only
    split
    · rename_i duplicate
      obtain ⟨earlier, only⟩ := inserted duplicate
      refine (Records.findPost_ensures only).bind soundT fun found u _ later here => ?_
      subst here
      exact .pure (later.post only)
    · exact .throw

/-- What a move to success answers: a held copy of the job, with a post only if the job is a
success and has no other post. -/
def Succeeded (job : Job) (answer : Job × Option Post) (s : Stores) : Prop :=
  answer.1.id = job.id ∧ s.Holds answer.1 ∧
    ∀ post, answer.2 = some post → answer.1.status = .success ∧ s.posts.of job.id = [post]

/-- What a move to failure answers: a held copy of the job, which has the message if this was the
call that failed it. -/
def FailedWith (message : String) (job : Job) (answer : Job × Bool) (s : Stores) : Prop :=
  answer.1.id = job.id ∧ s.Holds answer.1 ∧
    (answer.2 = true → answer.1.status = .failed ∧ answer.1.lastError = some message)

theorem owned_of_hasRow {candidate : Job} {post : Post} (hasRow : s.HasRow candidate)
    (forJob : post.jobId = candidate.id) (account : post.accountId = candidate.accountId)
    (platform : post.platform = candidate.platform) :
    ∃ row, s.jobs.find? post.jobId = some row ∧ row.accountId = post.accountId ∧
      row.platform = post.platform := by
  obtain ⟨row, found, same⟩ := hasRow
  exact ⟨row, by rwa [forJob], (Job.accountId_eq_of_work_eq same).trans account.symm,
    (Job.platform_eq_of_work_eq same).trans platform.symm⟩

theorem finish_ensures (sound : s.Sound) {candidate : Job} {post : Post}
    (hasRow : s.HasRow candidate) (success : candidate.status = .success)
    (forJob : post.jobId = candidate.id) (account : post.accountId = candidate.accountId)
    (platform : post.platform = candidate.platform) :
    (finish candidate post).Ensures (.bookkeeping anyRead) (Succeeded candidate) s := by
  unfold finish
  have owned := owned_of_hasRow hasRow forJob account platform
  refine (recordPost_ensures sound owned).bind sound fun recorded t soundT later only => ?_
  rw [forJob] at only
  refine (Records.updateJob_ensures (hasRow.later later) (fun _ => ⟨recorded, only⟩)
    (by simp [success])).bind soundT fun written u soundU laterU put => ?_
  cases written with
  | true =>
    refine .pure ⟨rfl, Stores.holds_of_find? (put rfl), ?_⟩
    rintro _ ⟨⟩
    exact ⟨success, laterU.post only⟩
  | false =>
    refine (stored_ensures soundU candidate.id).bind soundU fun row v _ _ found => ?_
    exact .pure ⟨JobStore.id_of_find? found, Stores.holds_of_find? found, by simp⟩

theorem succeed_ensures (sound : s.Sound) {job : Job} (holds : s.Holds job)
    (result : PublishResult) :
    (succeed job result).Ensures (.bookkeeping anyRead) (Succeeded job) s := by
  unfold succeed
  split
  · refine (Action.Ensures.always Records.now_meets).bind sound fun now t soundT later _ => ?_
    have holdsT := holds.later later
    rcases job.markSuccess_eq now with marked | ⟨candidate, marked, same, success⟩
    · simp only [marked]
      exact .pure ⟨rfl, holdsT, by simp⟩
    · simp only [marked]
      refine (stored_ensures soundT job.id).bind soundT fun row u soundU laterU found => ?_
      have holdsU := holdsT.later laterU
      split
      · exact .pure ⟨JobStore.id_of_find? found, Stores.holds_of_find? found, by simp⟩
      · refine (Action.Ensures.always Records.freshId_meets).bind soundU
          fun id v soundV laterV _ => ?_
        have holdsV := holdsU.later laterV
        split
        · rename_i post made
          obtain ⟨forJob, account, platform⟩ := Post.ofSuccess?_eq_some made
          have sameId := Job.id_eq_of_work_eq same
          refine (finish_ensures soundV (holdsV.1.of_work_eq same) success forJob account
            platform).weaken fun answer w => ?_
          rintro ⟨id, held, posted⟩
          exact ⟨id.trans sameId, held, by rwa [sameId] at posted⟩
        · exact .pure ⟨rfl, holdsV, by simp⟩
  · exact .throw

theorem fail_ensures (sound : s.Sound) {job : Job} (holds : s.Holds job) (message : String) :
    (fail job message).Ensures (.bookkeeping anyRead) (FailedWith message job) s := by
  unfold fail
  refine (Action.Ensures.always Records.now_meets).bind sound fun now t soundT later _ => ?_
  have holdsT := holds.later later
  rcases job.markFailure_eq message now with marked | ⟨failed, marked, same, status, error⟩
  · simp only [marked]
    exact .pure ⟨rfl, holdsT, by simp⟩
  · simp only [marked]
    refine (Records.updateJob_ensures (holdsT.1.of_work_eq same) (by simp [status])
      (by simp [error])).bind soundT fun written u soundU laterU put => ?_
    cases written with
    | true =>
      exact .pure ⟨Job.id_eq_of_work_eq same, Stores.holds_of_find? (put rfl),
        fun _ => ⟨status, error⟩⟩
    | false =>
      refine (stored_ensures soundU job.id).bind soundU fun row v _ _ found => ?_
      exact .pure ⟨JobStore.id_of_find? found, Stores.holds_of_find? found, by simp⟩

theorem stored_finished (sound : s.Sound) {id : JobId} {row : Job}
    (found : s.jobs.find? id = some row) (finished : row.isTerminal = true) :
    (stored id).Ensures (.bookkeeping anyRead) (fun job _ => job.isTerminal = true) s := by
  unfold stored
  refine (Records.findJob_ensures id).bind sound fun read t _ later here => ?_
  rw [later.finished found finished] at here
  subst here
  exact .pure finished

/-- The job that a move to failure answers is finished. -/
theorem fail_finishes (sound : s.Sound) {job : Job} (holds : s.Holds job) (message : String) :
    (fail job message).Ensures (.bookkeeping anyRead)
      (fun answer _ => answer.1.isTerminal = true) s := by
  unfold fail
  refine (Action.Ensures.always Records.now_meets).bind sound fun now t soundT later _ => ?_
  rcases job.markFailure_eq message now with marked | ⟨failed, marked, same, status, error⟩
  · simp only [marked]
    exact .pure (Job.isTerminal_of_markFailure marked)
  · simp only [marked]
    have hasRow := (holds.later later).1.of_work_eq same
    refine (Records.updateJob_overtaken hasRow (by simp [status]) (by simp [error])).bind soundT
      fun written u soundU _ overtaken => ?_
    cases written with
    | true => exact .pure (Job.isTerminal_iff.2 (by simp [status]))
    | false =>
      obtain ⟨row, found, finished⟩ := overtaken rfl
      rw [Job.id_eq_of_work_eq same] at found
      exact (stored_finished soundU found finished).bind soundU fun _ _ _ _ is => .pure is

theorem finish_finishes (sound : s.Sound) {candidate : Job} {post : Post}
    (hasRow : s.HasRow candidate) (success : candidate.status = .success)
    (forJob : post.jobId = candidate.id) (account : post.accountId = candidate.accountId)
    (platform : post.platform = candidate.platform) :
    (finish candidate post).Ensures (.bookkeeping anyRead)
      (fun answer _ => answer.1.isTerminal = true) s := by
  unfold finish
  have owned := owned_of_hasRow hasRow forJob account platform
  refine (recordPost_ensures sound owned).bind sound fun recorded t soundT later only => ?_
  rw [forJob] at only
  refine (Records.updateJob_overtaken (hasRow.later later) (fun _ => ⟨recorded, only⟩)
    (by simp [success])).bind soundT fun written u soundU _ overtaken => ?_
  cases written with
  | true => exact .pure (Job.isTerminal_iff.2 (by simp [success]))
  | false =>
    obtain ⟨row, found, finished⟩ := overtaken rfl
    exact (stored_finished soundU found finished).bind soundU fun _ _ _ _ is => .pure is

/-- The job that a move to success answers is finished, if the result makes a post. -/
theorem succeed_finishes (sound : s.Sound) {job : Job} (holds : s.Holds job)
    {result : PublishResult}
    (makes : ∀ job id now, (Post.ofSuccess? job result id now).isSome = true) :
    (succeed job result).Ensures (.bookkeeping anyRead)
      (fun answer _ => answer.1.isTerminal = true) s := by
  unfold succeed
  split
  · refine (Action.Ensures.always Records.now_meets).bind sound fun now t soundT later _ => ?_
    have holdsT := holds.later later
    rcases job.markSuccess_eq now with marked | ⟨candidate, marked, same, success⟩
    · simp only [marked]
      exact .pure (Job.isTerminal_of_markSuccess marked)
    · simp only [marked]
      refine (stored_ensures soundT job.id).bind soundT fun row u soundU laterU found => ?_
      split
      · rename_i finished
        exact .pure finished
      · refine (Action.Ensures.always Records.freshId_meets).bind soundU
          fun id v soundV laterV _ => ?_
        obtain ⟨post, made⟩ := Option.isSome_iff_exists.1 (makes candidate ⟨id⟩ now)
        simp only [made]
        have hasRow := ((holdsT.later laterU).later laterV).1.of_work_eq same
        obtain ⟨forJob, account, platform⟩ := Post.ofSuccess?_eq_some made
        exact finish_finishes soundV hasRow success forJob account platform
  · exact .throw

theorem postOf_ensures {job : Job} {post : Post} (only : s.posts.of job.id = [post]) :
    (postOf job).Ensures (.bookkeeping anyRead) (fun found _ => found = some post) s :=
  Records.findPost_ensures only

end Ledger

end Syndication
