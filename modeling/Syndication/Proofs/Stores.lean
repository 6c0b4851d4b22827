import Syndication.Event.Announcement
import Syndication.Proofs.Conduct
import Syndication.Proofs.Rows

namespace Syndication

/-- The stores that programs share. -/
structure Stores where
  jobs : JobStore := {}
  posts : PostStore := {}

namespace Stores

/-- What the records may answer to a call, and what becomes of the stores by it.

The clock and the source of identifiers answer anything. Every other call may fail with any fault,
and has no effect then. Only one thing is known about a fault: a post is refused as a duplicate
only when its job has one. -/
def Answers : Surroundings Records Stores
  | s, .insertJob job, .ok _, t => ∃ jobs, s.jobs.insert job = .ok jobs ∧ t = { s with jobs }
  | s, .updateJob job, .ok written, t =>
    ∃ jobs, s.jobs.update job = .ok (written, jobs) ∧ t = { s with jobs }
  | s, .findJob id, .ok found, t => found = s.jobs.find? id ∧ t = s
  | s, .findJobByKey key, .ok found, t => found = s.jobs.findByKey? key ∧ t = s
  | s, .insertPost post, .ok _, t => ∃ posts, s.posts.insert post = .ok posts ∧ t = { s with posts }
  | s, .insertPost post, .error fault, t =>
    (fault.isDuplicate = true → (s.posts.find? post.jobId).isSome = true) ∧ t = s
  | s, .findPost job, .ok found, t => found = s.posts.find? job ∧ t = s
  | s, _, _, t => t = s

/-- A call fails only if the stores refuse it, and no identifier is given out that a job has. -/
def Faultless (s : Stores) : (c : RecordCall) → c.Answer → Prop
  | .freshId, id => ∀ row ∈ s.jobs.rows, row.id ≠ ⟨id⟩
  | .insertJob job, .error fault => s.jobs.insert job = .error fault
  | .updateJob job, .error fault => s.jobs.update job = .error fault
  | .insertPost post, .error fault => s.posts.insert post = .error fault
  | .findJob _, .error _ | .findJobByKey _, .error _ | .findPost _, .error _ | .send _, .error _ =>
    False
  | _, _ => True

/-- What records that work may answer, and what becomes of the stores by it. -/
def Works : Surroundings Records Stores := fun s c a t => s.Answers c a t ∧ s.Faultless c a

/-- The job ended in success, and this is its only post. -/
def Published (s : Stores) (id : JobId) (post : Post) : Prop :=
  ∃ row, s.jobs.find? id = some row ∧ row.status = .success ∧ s.posts.of id = [post]

/-- The job ended in failure, and this is its stored message. -/
def Failed (s : Stores) (id : JobId) (message : String) : Prop :=
  ∃ row, s.jobs.find? id = some row ∧ row.status = .failed ∧ row.lastError = some message

/-- The job has a row, which is for the same work. -/
def HasRow (s : Stores) (job : Job) : Prop :=
  ∃ row, s.jobs.find? job.id = some row ∧ row.work = job.work

/-- A copy of a job is for what its row is for, and is the row itself if it is finished. -/
def Holds (s : Stores) (job : Job) : Prop :=
  s.HasRow job ∧ (job.isTerminal = true → s.jobs.find? job.id = some job)

end Stores

/-- What an event says about the end of a job is what the stores say. -/
def Event.Agrees (s : Stores) : Event → Prop
  | .succeeded event => ∃ post, s.Published event.jobId post ∧
      event.platformPostId = post.platformPostId ∧ event.permalink = post.permalink
  | .failed event => s.Failed event.jobId event.error
  | _ => True

namespace Stores

structure Sound (s : Stores) : Prop where
  ids : ((s.jobs.rows.map Job.work).map (·.id)).Nodup
  keys : ((s.jobs.rows.map Job.work).filterMap (·.idempotencyKey)).Nodup
  /-- Every job was made for a valid request. -/
  asked : ∀ job ∈ s.jobs.rows.map Job.work, job.IsFresh
  /-- Every post is for a job, and says of it what its row says. -/
  owned : ∀ post ∈ s.posts.rows, ∃ job ∈ s.jobs.rows.map Job.work,
    job.id = post.jobId ∧ job.accountId = post.accountId ∧ job.platform = post.platform
  single : ∀ id, (s.posts.of id).length ≤ 1
  posted : ∀ row ∈ s.jobs.rows, row.status = .success → ∃ post, s.posts.of row.id = [post]
  explained : ∀ row ∈ s.jobs.rows, row.status = .failed → row.lastError.isSome = true

/-- `t` may follow on `s`. -/
structure Later (s t : Stores) : Prop where
  row : ∀ {id row}, s.jobs.find? id = some row → ∃ row', t.jobs.find? id = some row' ∧
    row'.work = row.work ∧ (row.isTerminal = true → row' = row)
  post : ∀ {id post}, s.posts.of id = [post] → t.posts.of id = [post]

/-- The calls on the records that a program may make. Looking for a post that need not be there is
for those only who have `anyRead`. -/
def Permits (anyRead : Prop) : Stores → RecordCall → Prop
  | _, .insertJob job => job.IsFresh
  | s, .updateJob job => s.HasRow job ∧
      (job.status = .success → ∃ post, s.posts.of job.id = [post]) ∧
      (job.status = .failed → job.lastError.isSome = true)
  | s, .insertPost post => ∃ row, s.jobs.find? post.jobId = some row ∧
      row.accountId = post.accountId ∧ row.platform = post.platform
  | s, .findPost id => (∃ post, s.posts.of id = [post]) ∨ anyRead
  | s, .send envelope => ∃ job event,
      envelope = Announcement.envelope job event ∧ event.jobId = job.id ∧ event.Agrees s
  | _, _ => True

theorem Later.refl (s : Stores) : s.Later s where
  row found := ⟨_, found, rfl, fun _ => rfl⟩
  post only := only

theorem Later.trans {s t u : Stores} (first : s.Later t) (second : t.Later u) : s.Later u where
  row found := by
    obtain ⟨mid, foundMid, sameMid, keptMid⟩ := first.row found
    obtain ⟨last, foundLast, sameLast, keptLast⟩ := second.row foundMid
    refine ⟨last, foundLast, sameLast.trans sameMid, fun finished => ?_⟩
    obtain rfl := keptMid finished
    exact keptLast finished
  post only := second.post (first.post only)

theorem Later.finished {s t : Stores} (later : s.Later t) {id : JobId} {row : Job}
    (found : s.jobs.find? id = some row) (finished : row.isTerminal = true) :
    t.jobs.find? id = some row := by
  obtain ⟨row', found', _, kept⟩ := later.row found
  rwa [kept finished] at found'

theorem Later.unknown {s t : Stores} (later : s.Later t) {id : JobId}
    (unknown : t.jobs.find? id = none) : s.jobs.find? id = none := by
  cases found : s.jobs.find? id with
  | none => rfl
  | some row =>
    obtain ⟨row', found', _⟩ := later.row found
    simp [unknown] at found'

theorem Published.later {s t : Stores} {id : JobId} {post : Post} (published : s.Published id post)
    (later : s.Later t) : t.Published id post := by
  obtain ⟨row, found, status, only⟩ := published
  exact ⟨row, later.finished found (Job.isTerminal_iff.2 (by simp [status])), status,
    later.post only⟩

theorem Failed.later {s t : Stores} {id : JobId} {message : String} (failed : s.Failed id message)
    (later : s.Later t) : t.Failed id message := by
  obtain ⟨row, found, status, error⟩ := failed
  exact ⟨row, later.finished found (Job.isTerminal_iff.2 (by simp [status])), status, error⟩

theorem HasRow.later {s t : Stores} {job : Job} (hasRow : s.HasRow job) (later : s.Later t) :
    t.HasRow job := by
  obtain ⟨row, found, same⟩ := hasRow
  obtain ⟨row', found', same', _⟩ := later.row found
  exact ⟨row', found', same'.trans same⟩

theorem HasRow.of_work_eq {s : Stores} {job other : Job} (hasRow : s.HasRow job)
    (same : other.work = job.work) : s.HasRow other := by
  obtain ⟨row, found, sameRow⟩ := hasRow
  exact ⟨row, by rwa [Job.id_eq_of_work_eq same], sameRow.trans same.symm⟩

theorem Holds.later {s t : Stores} {job : Job} (holds : s.Holds job) (later : s.Later t) :
    t.Holds job :=
  ⟨holds.1.later later, fun finished => later.finished (holds.2 finished) finished⟩

theorem holds_of_find? {s : Stores} {id : JobId} {row : Job} (found : s.jobs.find? id = some row) :
    s.Holds row := by
  obtain rfl := JobStore.id_of_find? found
  exact ⟨⟨row, found, rfl⟩, fun _ => found⟩

theorem Sound.find?_iff {s : Stores} (sound : s.Sound) {id : JobId} {row : Job} :
    s.jobs.find? id = some row ↔ row ∈ s.jobs.rows ∧ row.id = id :=
  find?_key_iff (by simpa [Function.comp_def] using sound.ids)

theorem Sound.findByKey?_eq {s : Stores} (sound : s.Sound) {key : String} {row : Job}
    (member : row ∈ s.jobs.rows) (has : row.idempotencyKey = some key) :
    s.jobs.findByKey? key = some row :=
  find?_eq_some_of_key (by simpa [List.filterMap_map, Function.comp_def] using sound.keys) member
    has

theorem Sound.of_findByKey? {s : Stores} (sound : s.Sound) {key : String} {row : Job}
    (found : s.jobs.findByKey? key = some row) :
    s.jobs.find? row.id = some row ∧ row.idempotencyKey = some key :=
  ⟨sound.find?_iff.2 ⟨List.mem_of_find?_eq_some found, rfl⟩,
    by simpa using List.find?_some found⟩

/-- A post says of its job what the row of the job says. -/
theorem Sound.owner_eq {s : Stores} (sound : s.Sound) {row : Job} {post : Post}
    (member : row ∈ s.jobs.rows) (posted : post ∈ s.posts.rows) (forRow : post.jobId = row.id) :
    post.accountId = row.accountId ∧ post.platform = row.platform := by
  obtain ⟨work, inWork, id, account, platform⟩ := sound.owned post posted
  obtain ⟨other, inRows, rfl⟩ := List.mem_map.1 inWork
  have found := sound.find?_iff.2 ⟨inRows, id.trans forRow⟩
  obtain rfl : row = other := by simpa [sound.find?_iff.2 ⟨member, rfl⟩] using found
  exact ⟨account.symm, platform.symm⟩

/-- A post that is found is the only one for its job. -/
theorem Sound.of_eq {s : Stores} (sound : s.Sound) {id : JobId} {post : Post}
    (found : s.posts.find? id = some post) : s.posts.of id = [post] := by
  rw [PostStore.find?_eq] at found
  have single := sound.single id
  match all : s.posts.of id with
  | [] => simp [all] at found
  | [only] => simpa [all] using found
  | _ :: _ :: _ => simp [all] at single

theorem find?_of_eq {s : Stores} {id : JobId} {post : Post} (only : s.posts.of id = [post]) :
    s.posts.find? id = some post := by
  simp [PostStore.find?_eq, only]

theorem Later.of_insertJob {s : Stores} {job : Job} {jobs : JobStore}
    (inserted : s.jobs.insert job = .ok jobs) : s.Later { s with jobs } where
  row {id row} found := by
    refine ⟨row, ?_, rfl, fun _ => rfl⟩
    simp [JobStore.find?_append (JobStore.insert_eq_ok inserted).1, found]
  post only := only

theorem Later.of_updateJob {s : Stores} {job : Job} {written : Bool} {jobs : JobStore}
    (hasRow : s.HasRow job) (updated : s.jobs.update job = .ok (written, jobs)) :
    s.Later { s with jobs } where
  row {id row} found := by
    obtain ⟨old, foundOld, sameOld⟩ := hasRow
    obtain ⟨row', foundRow, ⟨_, _, rfl⟩ | ⟨_, pending, replaced⟩⟩ := JobStore.update_eq_ok updated
    · exact ⟨row, found, rfl, fun _ => rfl⟩
    · obtain rfl : old = row' := by simpa [foundOld] using foundRow
      by_cases this : row.id = job.id
      · have here : id = job.id := (JobStore.id_of_find? found).symm.trans this
        obtain rfl : row = old := by simpa [here, foundOld] using found.symm
        refine ⟨job, ?_, sameOld.symm, fun finished => by simp [pending] at finished⟩
        simp [JobStore.find?_replace replaced, found, this]
      · refine ⟨row, ?_, rfl, fun _ => rfl⟩
        simp [JobStore.find?_replace replaced, found, this]
  post only := only

theorem Later.of_insertPost {s : Stores} {post : Post} {posts : PostStore}
    (inserted : s.posts.insert post = .ok posts) : s.Later { s with posts } where
  row found := ⟨_, found, rfl, fun _ => rfl⟩
  post {id other} only := by
    obtain ⟨new, appended⟩ := PostStore.insert_eq_ok inserted
    have apart : post.jobId ≠ id := by
      rintro rfl
      simp [only] at new
    simp [PostStore.of_append appended, only, apart]

theorem Sound.insertJob {s : Stores} {job : Job} {jobs : JobStore} (sound : s.Sound)
    (fresh : job.IsFresh) (inserted : s.jobs.insert job = .ok jobs) : Sound { s with jobs } := by
  obtain ⟨appended, newId, _⟩ := JobStore.insert_eq_ok inserted
  have cases : ∀ {row}, row ∈ jobs.rows → row ∈ s.jobs.rows ∨ row = job := fun member => by
    simpa [appended] using member
  constructor
  case ids =>
    have distinct := sound.ids
    simp only [appended, List.map_append, List.map_cons, List.map_nil]
    refine List.nodup_append.2 ⟨distinct, by simp, ?_⟩
    simpa using newId
  case keys =>
    have distinct := JobStore.keys_nodup_of_insert inserted
      (by simpa [List.filterMap_map, Function.comp_def] using sound.keys)
    simpa [List.filterMap_map, Function.comp_def] using distinct
  case asked =>
    intro work member
    obtain ⟨row, inRows, rfl⟩ := List.mem_map.1 member
    rcases cases inRows with old | rfl
    · exact sound.asked row.work (List.mem_map_of_mem old)
    · rwa [fresh.work]
  case owned =>
    intro post member
    obtain ⟨job, inRows, same⟩ := sound.owned post member
    exact ⟨job, by simpa [appended] using .inl (by simpa using inRows), same⟩
  case single => exact sound.single
  case posted =>
    intro row member success
    rcases cases member with old | rfl
    · exact sound.posted row old success
    · simp [fresh.status] at success
  case explained =>
    intro row member failed
    rcases cases member with old | rfl
    · exact sound.explained row old failed
    · simp [fresh.status] at failed

theorem Sound.updateJob {s : Stores} {job : Job} {written : Bool} {jobs : JobStore}
    (sound : s.Sound) (hasRow : s.HasRow job)
    (posted : job.status = .success → ∃ post, s.posts.of job.id = [post])
    (explained : job.status = .failed → job.lastError.isSome = true)
    (updated : s.jobs.update job = .ok (written, jobs)) : Sound { s with jobs } := by
  obtain ⟨old, foundOld, sameOld⟩ := hasRow
  obtain ⟨row, foundRow, ⟨_, _, rfl⟩ | ⟨_, pending, replaced⟩⟩ := JobStore.update_eq_ok updated
  · exact sound
  · have sameWork : jobs.rows.map Job.work = s.jobs.rows.map Job.work := by
      rw [replaced]
      refine JobStore.map_work_replace fun row member id => ?_
      obtain rfl : row = old := by
        simpa [foundOld] using (sound.find?_iff.2 ⟨member, id⟩).symm
      exact sameOld
    constructor
    case ids => simpa only [sameWork] using sound.ids
    case keys => simpa only [sameWork] using sound.keys
    case asked => simpa only [sameWork] using sound.asked
    case owned => simpa only [sameWork] using sound.owned
    case single => exact sound.single
    case posted =>
      intro row member success
      rcases JobStore.mem_replace (replaced ▸ member) with rfl | old
      · exact posted success
      · exact sound.posted row old success
    case explained =>
      intro row member failed
      rcases JobStore.mem_replace (replaced ▸ member) with rfl | old
      · exact explained failed
      · exact sound.explained row old failed

theorem Sound.insertPost {s : Stores} {post : Post} {posts : PostStore} (sound : s.Sound)
    (owned : ∃ row, s.jobs.find? post.jobId = some row ∧ row.accountId = post.accountId ∧
      row.platform = post.platform)
    (inserted : s.posts.insert post = .ok posts) : Sound { s with posts } := by
  obtain ⟨new, appended⟩ := PostStore.insert_eq_ok inserted
  constructor
  case ids => exact sound.ids
  case keys => exact sound.keys
  case asked => exact sound.asked
  case owned =>
    intro other member
    rcases (by simpa [appended] using member : other ∈ s.posts.rows ∨ other = post) with old | rfl
    · exact sound.owned other old
    · obtain ⟨row, found, account, platform⟩ := owned
      exact ⟨row.work, List.mem_map_of_mem (JobStore.mem_of_find? found),
        by simpa using JobStore.id_of_find? found, account, platform⟩
  case single =>
    intro id
    have single := sound.single id
    by_cases here : post.jobId = id
    · subst here
      simp [PostStore.of_append appended, new]
    · simpa [PostStore.of_append appended, here] using single
  case posted =>
    intro row member success
    obtain ⟨earlier, only⟩ := sound.posted row member success
    exact ⟨earlier, (Later.of_insertPost inserted).post only⟩
  case explained => exact sound.explained

theorem Sound.empty : Sound {} := by
  constructor <;> simp [PostStore.of]

/-- How an answered call moves the stores. -/
inductive Writes (s : Stores) : (c : RecordCall) → c.Answer → Stores → Prop
  | nothing {c : RecordCall} {a : c.Answer} : s.Writes c a s
  | insertJob {job : Job} {jobs : JobStore} : s.jobs.insert job = .ok jobs →
      s.Writes (.insertJob job) (.ok ()) { s with jobs }
  | updateJob {job : Job} {written : Bool} {jobs : JobStore} :
      s.jobs.update job = .ok (written, jobs) →
      s.Writes (.updateJob job) (.ok written) { s with jobs }
  | insertPost {post : Post} {posts : PostStore} : s.posts.insert post = .ok posts →
      s.Writes (.insertPost post) (.ok ()) { s with posts }

theorem Answers.writes {s t : Stores} {c : RecordCall} {a : c.Answer}
    (answered : s.Answers c a t) : s.Writes c a t := by
  cases c with
  | insertJob job =>
    cases a with
    | ok _ => obtain ⟨jobs, inserted, rfl⟩ := answered; exact .insertJob inserted
    | error _ => obtain rfl := answered; exact .nothing
  | updateJob job =>
    cases a with
    | ok _ => obtain ⟨jobs, updated, rfl⟩ := answered; exact .updateJob updated
    | error _ => obtain rfl := answered; exact .nothing
  | insertPost post =>
    cases a with
    | ok _ => obtain ⟨posts, inserted, rfl⟩ := answered; exact .insertPost inserted
    | error _ => obtain ⟨_, rfl⟩ := answered; exact .nothing
  | findJob _ | findJobByKey _ | findPost _ =>
    cases a with
    | ok _ => obtain ⟨_, rfl⟩ := answered; exact .nothing
    | error _ => obtain rfl := answered; exact .nothing
  | now | freshId | send _ => obtain rfl := answered; exact .nothing

theorem Sound.answers {anyRead : Prop} {s t : Stores} {c : RecordCall} {a : c.Answer}
    (sound : s.Sound) (permitted : s.Permits anyRead c) (answered : s.Answers c a t) :
    t.Sound ∧ s.Later t := by
  cases answered.writes with
  | nothing => exact ⟨sound, .refl s⟩
  | insertJob inserted => exact ⟨sound.insertJob permitted inserted, .of_insertJob inserted⟩
  | updateJob updated =>
    obtain ⟨hasRow, posted, explained⟩ := permitted
    exact ⟨sound.updateJob hasRow posted explained updated, .of_updateJob hasRow updated⟩
  | insertPost inserted => exact ⟨sound.insertPost permitted inserted, .of_insertPost inserted⟩

end Stores

/-- What the services may answer to a call, and what becomes of the stores by it. -/
abbrev Stores.Replies : Surroundings Services Stores := Surroundings.withServices Stores.Answers

/-- What the services may answer when the records work. The others may answer as they like. -/
abbrev Stores.Serves : Surroundings Services Stores := Surroundings.withServices Stores.Works

theorem Stores.Serves.replies {s t : Stores} {c : ServiceCall} {answer : c.Answer}
    (served : s.Serves c answer t) : s.Replies c answer t := by
  cases c with
  | records c => exact served.1
  | _ => exact served

/-- How programs on the records share their stores. -/
def Discipline.bookkeeping (anyRead : Prop) : Discipline Records Stores where
  around := Stores.Answers
  sound := Stores.Sound
  rely := Stores.Later
  permits := Stores.Permits anyRead
  refl := Stores.Later.refl
  trans := Stores.Later.trans
  keeps sound permitted answered := (sound.answers permitted answered).1
  moves sound permitted answered := (sound.answers permitted answered).2

/-- How programs on all services share the stores of jobs and posts. -/
abbrev Discipline.publishing (anyRead : Prop) : Discipline Services Stores :=
  (bookkeeping anyRead).withServices

namespace Stores

/-- A post that is stored was there before or is inserted by the call. -/
theorem Replies.post_origin {s t : Stores} {c : ServiceCall} {answer : c.Answer}
    (answered : s.Replies c answer t) {post : Post} (member : post ∈ t.posts.rows) :
    post ∈ s.posts.rows ∨
      (⟨c, answer⟩ : Services.Exchange) = ⟨.records (.insertPost post), .ok ()⟩ := by
  cases c with
  | records c =>
    cases Answers.writes answered with
    | nothing | insertJob _ | updateJob _ => exact .inl member
    | @insertPost other posts inserted =>
      have appended := (PostStore.insert_eq_ok inserted).2
      rcases (by simpa [appended] using member : post ∈ s.posts.rows ∨ post = other) with old | rfl
      · exact .inl old
      · exact .inr rfl
  | _ => obtain rfl := answered; exact .inl member

/-- A failed row was there before or is written by the call. -/
theorem Replies.failed_origin {anyRead : Prop} {s t : Stores} {c : ServiceCall} {answer : c.Answer}
    (permitted : (Discipline.publishing anyRead).permits s c) (answered : s.Replies c answer t)
    {row : Job} (member : row ∈ t.jobs.rows) (failed : row.status = .failed) :
    row ∈ s.jobs.rows ∨
      (⟨c, answer⟩ : Services.Exchange) = ⟨.records (.updateJob row), .ok true⟩ := by
  cases c with
  | records c =>
    cases Answers.writes answered with
    | nothing | insertPost _ => exact .inl member
    | @insertJob job jobs inserted =>
      have appended := (JobStore.insert_eq_ok inserted).1
      rcases (by simpa [appended] using member : row ∈ s.jobs.rows ∨ row = job) with old | rfl
      · exact .inl old
      · have fresh : row.IsFresh := permitted
        simp [fresh.status] at failed
    | updateJob updated =>
      obtain ⟨_, _, ⟨_, _, rfl⟩ | ⟨rfl, _, replaced⟩⟩ := JobStore.update_eq_ok updated
      · exact .inl member
      · rcases JobStore.mem_replace (replaced ▸ member) with rfl | old
        · exact .inr rfl
        · exact .inl old
  | _ => obtain rfl := answered; exact .inl member

end Stores

theorem Program.Plays.post_origin {α : Type} {p q : Program Services α}
    {log : List Services.Exchange} {s t : Stores} (plays : p.Plays Stores.Replies s log q t)
    {post : Post} (member : post ∈ t.posts.rows) :
    post ∈ s.posts.rows ∨ ∃ exchange ∈ log, exchange.1 = .records (.insertPost post) := by
  induction plays with
  | stop => exact .inl member
  | call answered _ ih =>
    rcases ih member with old | ⟨exchange, inLog, is⟩
    · rcases answered.post_origin old with older | new
      · exact .inl older
      · exact .inr ⟨_, List.mem_cons_self .., congrArg Sigma.fst new⟩
    · exact .inr ⟨exchange, List.mem_cons_of_mem _ inLog, is⟩

theorem Event.Agrees.later {s t : Stores} {event : Event} (agrees : event.Agrees s)
    (later : s.Later t) : event.Agrees t := by
  cases event with
  | succeeded event =>
    obtain ⟨post, published, same⟩ := agrees
    exact ⟨post, published.later later, same⟩
  | failed event => exact Stores.Failed.later agrees later
  | _ => trivial

end Syndication
