import Mathlib.Data.List.Nodup
import Syndication.Store.Jobs
import Syndication.Store.Posts

namespace Syndication

/-- Looking a row up by its key finds exactly that row, when no key stands twice. -/
theorem find?_key_iff {α κ : Type} [DecidableEq κ] {key : α → κ} {rows : List α}
    (distinct : (rows.map key).Nodup) {k : κ} {row : α} :
    rows.find? (fun r => key r == k) = some row ↔ row ∈ rows ∧ key row = k := by
  constructor
  · intro found
    exact ⟨List.mem_of_find?_eq_some found, by simpa using List.find?_some found⟩
  · rintro ⟨member, rfl⟩
    induction rows with
    | nil => cases member
    | cons first rest ih =>
      obtain ⟨fresh, distinctRest⟩ := List.nodup_cons.1 distinct
      rcases List.mem_cons.1 member with rfl | inRest
      · simp
      · have apart : key first ≠ key row := fun same =>
          fresh (same ▸ List.mem_map_of_mem inRest)
        simpa [List.find?_cons, apart] using ih distinctRest inRest

theorem find?_eq_some_of_key {α κ : Type} [DecidableEq κ] {key : α → Option κ} {rows : List α}
    (distinct : (rows.filterMap key).Nodup) {k : κ} {row : α} (member : row ∈ rows)
    (has : key row = some k) : rows.find? (fun r => key r == some k) = some row := by
  induction rows with
  | nil => cases member
  | cons first rest ih =>
    rcases List.mem_cons.1 member with rfl | inRest
    · simp [has]
    · have known : k ∈ rest.filterMap key := List.mem_filterMap.2 ⟨row, inRest, has⟩
      have apart : key first ≠ some k := by
        intro same
        rw [List.filterMap_cons_some same] at distinct
        exact (List.nodup_cons.1 distinct).1 known
      have distinctRest : (rest.filterMap key).Nodup :=
        distinct.sublist ((List.sublist_cons_self first rest).filterMap key)
      simpa [List.find?_cons, apart] using ih distinctRest inRest

namespace Job

/-- What a job is for, without what has become of it. -/
def work (job : Job) : Job :=
  { job with
    status := .pending, startedAt := none, finishedAt := none, lastError := none
    updatedAt := job.createdAt }

@[simp] theorem work_id (job : Job) : job.work.id = job.id := rfl

@[simp] theorem work_idempotencyKey (job : Job) :
    job.work.idempotencyKey = job.idempotencyKey := rfl

@[simp] theorem work_userId (job : Job) : job.work.userId = job.userId := rfl

@[simp] theorem work_accountId (job : Job) : job.work.accountId = job.accountId := rfl

@[simp] theorem work_contentId (job : Job) : job.work.contentId = job.contentId := rfl

@[simp] theorem work_postType (job : Job) : job.work.postType = job.postType := rfl

@[simp] theorem work_platform (job : Job) : job.work.platform = job.platform := rfl

@[simp] theorem work_matchesRequest (job : Job) (request : Request) :
    job.work.matchesRequest request = job.matchesRequest request := rfl

theorem isTerminal_iff {job : Job} : job.isTerminal = true ↔ job.status ≠ .pending :=
  JobStatus.isTerminal_iff

/-- The job is as a valid request makes it. -/
def IsFresh (job : Job) : Prop :=
  ∃ request budget id now, request.validate = .ok () ∧ job = ofRequest request budget id now

theorem IsFresh.status {job : Job} (fresh : job.IsFresh) : job.status = .pending := by
  obtain ⟨_, _, _, _, _, rfl⟩ := fresh
  rfl

theorem IsFresh.work {job : Job} (fresh : job.IsFresh) : job.work = job := by
  obtain ⟨_, _, _, _, _, rfl⟩ := fresh
  rfl

theorem markStarted_eq (job : Job) (now : Timestamp) :
    job.markStarted now = (job, false) ∨ ∃ started, job.markStarted now = (started, true) ∧
      started.work = job.work ∧ started.status = .pending := by
  unfold markStarted
  split
  · exact .inl rfl
  · rename_i open_
    have pending : job.status = .pending := by
      by_contra finished
      exact open_ (by simp [isTerminal_iff.2 finished])
    exact .inr ⟨_, rfl, rfl, pending⟩

theorem markSuccess_eq (job : Job) (now : Timestamp) :
    job.markSuccess now = (job, false) ∨ ∃ done, job.markSuccess now = (done, true) ∧
      done.work = job.work ∧ done.status = .success := by
  unfold markSuccess
  split
  · exact .inr ⟨_, rfl, rfl, rfl⟩
  · exact .inl rfl

theorem markFailure_eq (job : Job) (message : String) (now : Timestamp) :
    job.markFailure message now = (job, false) ∨ ∃ done,
      job.markFailure message now = (done, true) ∧ done.work = job.work ∧
        done.status = .failed ∧ done.lastError = some message := by
  unfold markFailure
  split
  · exact .inr ⟨_, rfl, rfl, rfl, rfl⟩
  · exact .inl rfl

theorem work_of_markSuccess {job done : Job} {now : Timestamp}
    (marked : job.markSuccess now = (done, true)) : done.work = job.work := by
  rcases job.markSuccess_eq now with kept | ⟨other, is, same, _⟩
  · cases kept.symm.trans marked
  · cases is.symm.trans marked
    exact same

theorem work_of_markFailure {job done : Job} {message : String} {now : Timestamp}
    (marked : job.markFailure message now = (done, true)) : done.work = job.work := by
  rcases job.markFailure_eq message now with kept | ⟨other, is, same, _⟩
  · cases kept.symm.trans marked
  · cases is.symm.trans marked
    exact same

/-- A job that a mark of its end leaves as it is has come to its end before. -/
theorem isTerminal_of_markSuccess {job : Job} {now : Timestamp}
    (kept : job.markSuccess now = (job, false)) : job.isTerminal = true := by
  unfold markSuccess at kept
  split at kept
  · cases (Prod.mk.inj kept).2
  · rename_i closed
    exact isTerminal_iff.2 fun pending => closed (JobStatus.canBecome_iff.2 ⟨pending, by decide⟩)

theorem isTerminal_eq_false_of_markSuccess {job done : Job} {now : Timestamp}
    (marked : job.markSuccess now = (done, true)) : job.isTerminal = false := by
  unfold markSuccess at marked
  split at marked
  · rename_i open_
    have pending := (JobStatus.canBecome_iff.1 open_).1
    rw [isTerminal, pending]
    rfl
  · cases (Prod.mk.inj marked).2

theorem isTerminal_of_markFailure {job : Job} {message : String} {now : Timestamp}
    (kept : job.markFailure message now = (job, false)) : job.isTerminal = true := by
  unfold markFailure at kept
  split at kept
  · cases (Prod.mk.inj kept).2
  · rename_i closed
    exact isTerminal_iff.2 fun pending => closed (JobStatus.canBecome_iff.2 ⟨pending, by decide⟩)

theorem isTerminal_eq_false {job : Job} (pending : job.status = .pending) :
    job.isTerminal = false := by
  rw [isTerminal, pending]
  rfl

/-- A job goes on to match the request that it was made for. -/
theorem matchesRequest_of_work_eq {job : Job} {request : Request} {budget : UInt32} {id : JobId}
    {now : Timestamp} (made : job.work = ofRequest request budget id now) :
    job.matchesRequest request = true := by
  rw [← work_matchesRequest, made]
  simp [matchesRequest, ofRequest]

theorem id_eq_of_work_eq {job other : Job} (same : job.work = other.work) :
    job.id = other.id := by
  simpa using congrArg Job.id same

theorem userId_eq_of_work_eq {job other : Job} (same : job.work = other.work) :
    job.userId = other.userId := by
  simpa using congrArg Job.userId same

theorem accountId_eq_of_work_eq {job other : Job} (same : job.work = other.work) :
    job.accountId = other.accountId := by
  simpa using congrArg Job.accountId same

theorem platform_eq_of_work_eq {job other : Job} (same : job.work = other.work) :
    job.platform = other.platform := by
  simpa using congrArg Job.platform same

end Job

theorem Post.ofSuccess?_eq_some {job : Job} {result : PublishResult} {id : PostId}
    {now : Timestamp} {post : Post} (made : ofSuccess? job result id now = some post) :
    post.jobId = job.id ∧ post.accountId = job.accountId ∧ post.platform = job.platform := by
  unfold ofSuccess? at made
  obtain ⟨_, _, made⟩ := Option.bind_eq_some_iff.1 made
  obtain ⟨platformPostId, _, made⟩ := Option.bind_eq_some_iff.1 made
  obtain ⟨permalink, _, made⟩ := Option.bind_eq_some_iff.1 made
  cases made
  exact ⟨rfl, rfl, rfl⟩

namespace JobStore

theorem id_of_find? {store : JobStore} {id : JobId} {row : Job}
    (found : store.find? id = some row) : row.id = id := by
  simpa using List.find?_some found

theorem mem_of_find? {store : JobStore} {id : JobId} {row : Job}
    (found : store.find? id = some row) : row ∈ store.rows := List.mem_of_find?_eq_some found

/-- An accepted insertion puts the job behind the other rows; no other row has its identifier or
its key. -/
theorem insert_eq_ok {store after : JobStore} {job : Job}
    (inserted : store.insert job = .ok after) :
    after.rows = store.rows ++ [job] ∧ (∀ row ∈ store.rows, row.id ≠ job.id) ∧
      ∀ key, job.idempotencyKey = some key → ∀ row ∈ store.rows, row.idempotencyKey ≠ some key := by
  unfold insert at inserted
  split at inserted
  · cases inserted
  · rename_i newId
    split at inserted
    · cases inserted
    · rename_i newKey
      cases inserted
      refine ⟨rfl, fun row member same => newId ?_, fun key has row member same => ?_⟩
      · exact List.find?_isSome.2 ⟨row, member, by simpa using same⟩
      · have known : (store.findByKey? key).isSome :=
          List.find?_isSome.2 ⟨row, member, by simpa using same⟩
        have unknown : store.findByKey? key = none := by simpa [has] using newKey
        simp [unknown] at known

theorem insert_of_new {store : JobStore} {job : Job} (newId : ∀ row ∈ store.rows, row.id ≠ job.id)
    (newKey : ∀ key, job.idempotencyKey = some key →
      ∀ row ∈ store.rows, row.idempotencyKey ≠ some key) :
    store.insert job = .ok { store with rows := store.rows ++ [job] } := by
  have unknown : store.find? job.id = none := by
    simpa [find?] using newId
  cases has : job.idempotencyKey with
  | none => simp [insert, unknown, has]
  | some key =>
    have free : store.findByKey? key = none := by
      simpa [findByKey?] using newKey key has
    simp [insert, unknown, has, Option.filter, free]

/-- No key stands twice after an accepted insertion, if none did before. -/
theorem keys_nodup_of_insert {store after : JobStore} {job : Job}
    (inserted : store.insert job = .ok after)
    (distinct : (store.rows.filterMap (·.idempotencyKey)).Nodup) :
    (after.rows.filterMap (·.idempotencyKey)).Nodup := by
  obtain ⟨appended, _, newKey⟩ := insert_eq_ok inserted
  rw [appended, List.filterMap_append]
  refine List.nodup_append.2 ⟨distinct, by cases has : job.idempotencyKey <;> simp [has], ?_⟩
  rintro key member _ hasKey rfl
  obtain ⟨row, inRows, has⟩ := List.mem_filterMap.1 member
  exact newKey key (by simpa using hasKey) row inRows has

/-- A refused insertion is refused for the identifier or for the key. -/
theorem insert_eq_error {store : JobStore} {job : Job} {fault : ServiceFault}
    (refused : store.insert job = .error fault) : fault.isDuplicate = true ∧
      ((∃ row ∈ store.rows, row.id = job.id) ∨
        ∃ key, job.idempotencyKey = some key ∧
          ∃ row ∈ store.rows, row.idempotencyKey = some key) := by
  unfold insert at refused
  split at refused
  · rename_i known
    cases refused
    obtain ⟨row, found⟩ := Option.isSome_iff_exists.1 known
    exact ⟨rfl, .inl ⟨row, mem_of_find? found, id_of_find? found⟩⟩
  · split at refused
    · rename_i key taken
      cases refused
      obtain ⟨has, known⟩ := Option.filter_eq_some_iff.1 taken
      obtain ⟨row, found⟩ := Option.isSome_iff_exists.1 known
      exact ⟨rfl, .inr ⟨key, has, row, List.mem_of_find?_eq_some found,
        by simpa using List.find?_some found⟩⟩
    · cases refused

theorem find?_append {store after : JobStore} {job : Job} {id : JobId}
    (appended : after.rows = store.rows ++ [job]) :
    after.find? id = (store.find? id).or (if job.id = id then some job else none) := by
  simp [find?, appended, List.find?_append, List.find?_singleton]

theorem map_work_findByKey? (store : JobStore) (key : String) :
    (store.findByKey? key).map Job.work =
      (store.rows.map Job.work).find? fun job => job.idempotencyKey == some key := by
  rw [findByKey?, List.find?_map]
  rfl

/-- An answered update found the row. A finished row is kept, and any other one replaced. -/
theorem update_eq_ok {store after : JobStore} {job : Job} {written : Bool}
    (updated : store.update job = .ok (written, after)) :
    ∃ row, store.find? job.id = some row ∧
      (written = false ∧ row.isTerminal = true ∧ after = store ∨
        written = true ∧ row.isTerminal = false ∧ after.rows = replace job store.rows) := by
  unfold update at updated
  split at updated
  · cases updated
  · rename_i row found
    refine ⟨row, found, ?_⟩
    split at updated
    · rename_i finished
      cases updated
      exact .inl ⟨rfl, finished, rfl⟩
    · rename_i open_
      cases updated
      exact .inr ⟨rfl, by simpa using open_, rfl⟩

theorem find?_replace {store after : JobStore} {job : Job} {id : JobId}
    (replaced : after.rows = replace job store.rows) :
    after.find? id = (store.find? id).map fun row => if row.id = job.id then job else row := by
  have sameTest :
      ((fun row : Job => row.id == id) ∘ fun row => if row.id = job.id then job else row) =
      fun row => row.id == id := by
    funext row
    by_cases same : row.id = job.id <;> simp [same]
  rw [find?, find?, replaced, replace, List.find?_map, sameTest]

/-- A row that is not finished may be replaced. -/
theorem exists_update {store : JobStore} {job row : Job} (found : store.find? job.id = some row)
    (open_ : row.isTerminal = false) : ∃ after, store.update job = .ok (true, after) := by
  unfold update
  simp [found, open_]

theorem find?_of_update {store after : JobStore} {job : Job}
    (updated : store.update job = .ok (true, after)) : after.find? job.id = some job := by
  obtain ⟨row, found, ⟨impossible, _⟩ | ⟨_, _, replaced⟩⟩ := update_eq_ok updated
  · cases impossible
  · simp [find?_replace replaced, found, id_of_find? found]

theorem mem_replace {job row : Job} {rows : List Job} (member : row ∈ replace job rows) :
    row = job ∨ row ∈ rows := by
  obtain ⟨old, inRows, rfl⟩ := List.mem_map.1 member
  split
  · exact .inl rfl
  · exact .inr inRows

theorem replace_of_apart {job : Job} {rows : List Job} (apart : ∀ row ∈ rows, row.id ≠ job.id) :
    replace job rows = rows := by
  have same : ∀ row ∈ rows, (if row.id = job.id then job else row) = row :=
    fun row member => if_neg (apart row member)
  rw [replace, List.map_congr_left same, List.map_id']

@[simp] theorem map_id_replace (job : Job) (rows : List Job) :
    (replace job rows).map (·.id) = rows.map (·.id) := by
  rw [replace, List.map_map]
  refine List.map_congr_left fun row _ => ?_
  by_cases here : row.id = job.id <;> simp [here]

theorem map_work_replace {job : Job} {rows : List Job}
    (same : ∀ row ∈ rows, row.id = job.id → row.work = job.work) :
    (replace job rows).map Job.work = rows.map Job.work := by
  rw [replace, List.map_map]
  apply List.map_congr_left
  intro row member
  by_cases replaced : row.id = job.id
  · simp [replaced, same row member replaced]
  · simp [replaced]

end JobStore

namespace PostStore

def of (store : PostStore) (job : JobId) : List Post := store.rows.filter (·.jobId == job)

theorem find?_eq (store : PostStore) (job : JobId) : store.find? job = (store.of job).head? :=
  List.head?_filter.symm

theorem mem_of {store : PostStore} {job : JobId} {post : Post} :
    post ∈ store.of job ↔ post ∈ store.rows ∧ post.jobId = job := by
  simp [of]

theorem mem_of_find? {store : PostStore} {job : JobId} {post : Post}
    (found : store.find? job = some post) : post ∈ store.rows := List.mem_of_find?_eq_some found

theorem jobId_of_find? {store : PostStore} {job : JobId} {post : Post}
    (found : store.find? job = some post) : post.jobId = job := by
  simpa using List.find?_some found

/-- An accepted insertion puts the post behind the others, none of which is for the same job. -/
theorem insert_eq_ok {store after : PostStore} {post : Post}
    (inserted : store.insert post = .ok after) :
    store.of post.jobId = [] ∧ after.rows = store.rows ++ [post] := by
  unfold insert at inserted
  split at inserted
  · cases inserted
  · rename_i newJob
    cases inserted
    exact ⟨by simpa [find?_eq] using newJob, rfl⟩

theorem insert_eq_error {store : PostStore} {post : Post} {fault : ServiceFault}
    (refused : store.insert post = .error fault) : (store.find? post.jobId).isSome = true := by
  unfold insert at refused
  split at refused
  · assumption
  · cases refused

theorem isDuplicate_of_insert {store : PostStore} {post : Post} {fault : ServiceFault}
    (refused : store.insert post = .error fault) : fault.isDuplicate = true := by
  unfold insert at refused
  split at refused
  · cases refused
    rfl
  · cases refused

theorem of_append {store after : PostStore} {post : Post}
    (appended : after.rows = store.rows ++ [post]) (job : JobId) :
    after.of job = store.of job ++ if post.jobId = job then [post] else [] := by
  by_cases same : post.jobId = job <;> simp [of, appended, same]

theorem of_insert {store after : PostStore} {post : Post}
    (inserted : store.insert post = .ok after) : after.of post.jobId = [post] := by
  obtain ⟨new, appended⟩ := insert_eq_ok inserted
  simp [of_append appended, new]

end PostStore

end Syndication
