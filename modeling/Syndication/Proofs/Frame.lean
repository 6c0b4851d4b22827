import Syndication.Proofs.Custody
import Syndication.Proofs.Resumption

namespace Syndication

theorem JobStore.filter_replace (job : Job) (rows : List Job) :
    (replace job rows).filter (·.id ≠ job.id) = rows.filter (·.id ≠ job.id) := by
  induction rows with
  | nil => rfl
  | cons row rows ih =>
    rw [replace] at ih
    by_cases here : row.id = job.id <;> simpa [replace, here] using ih

namespace Stores

/-- Records any of whose calls may fail with any fault, and has no effect then. -/
def Fallible : Surroundings Records Stores
  | s, .insertPost _, .error _, t => t = s
  | s, c, a, t => s.Answers c a t

section

variable {s t : Stores} {c : RecordCall} {a : c.Answer}

theorem Answers.fallible (answered : s.Answers c a t) : s.Fallible c a t := by
  cases c with
  | insertPost post =>
    cases a with
    | ok _ => exact answered
    | error fault => exact answered.2
  | _ => exact answered

theorem Fallible.writes (answered : s.Fallible c a t) : s.Writes c a t := by
  cases c with
  | insertPost post =>
    cases a with
    | ok _ => exact Answers.writes answered
    | error fault =>
      obtain rfl := answered
      exact .nothing
  | _ => exact Answers.writes answered

theorem Fallible.answers (answered : s.Fallible c a t) (noPost : c.BooksFailure) :
    s.Answers c a t := by
  cases c with
  | insertPost => cases noPost
  | _ => exact answered

end

/-- No identifier stands twice, and no job has two posts. -/
structure Keyed (s : Stores) : Prop where
  ids : (s.jobs.rows.map (·.id)).Nodup
  single : ∀ id, (s.posts.of id).length ≤ 1

theorem Sound.keyed {s : Stores} (sound : s.Sound) : s.Keyed where
  ids := by simpa [Function.comp_def] using sound.ids
  single := sound.single

theorem Keyed.of_insert {s : Stores} {post : Post} {posts : PostStore} (keyed : s.Keyed)
    (inserted : s.posts.insert post = .ok posts) : Keyed { s with posts } where
  ids := keyed.ids
  single id := by
    obtain ⟨new, appended⟩ := PostStore.insert_eq_ok inserted
    by_cases here : post.jobId = id
    · subst here
      simp [PostStore.of_append appended, new]
    · simpa [PostStore.of_append appended, here] using keyed.single id

/-- The row and the posts of one job were written, and nothing else. -/
structure WrittenFor (s : Stores) (id : JobId) (t : Stores) : Prop where
  /-- No row is gone. -/
  ids : ∃ added, t.jobs.rows.map (·.id) = s.jobs.rows.map (·.id) ++ added ∧
    ∀ new ∈ added, new = id
  others : t.jobs.rows.filter (·.id ≠ id) = s.jobs.rows.filter (·.id ≠ id)
  posts : ∃ added, t.posts.rows = s.posts.rows ++ added ∧ ∀ post ∈ added, post.jobId = id

namespace WrittenFor

variable {s t u : Stores} {id : JobId}

theorem refl (s : Stores) (id : JobId) : s.WrittenFor id s where
  ids := ⟨[], by simp, by simp⟩
  others := rfl
  posts := ⟨[], by simp, by simp⟩

theorem trans (first : s.WrittenFor id t) (second : t.WrittenFor id u) : s.WrittenFor id u where
  ids := by
    obtain ⟨added, ids, new⟩ := first.ids
    obtain ⟨more, idsToo, newToo⟩ := second.ids
    refine ⟨added ++ more, ?_, List.forall_mem_append.2 ⟨new, newToo⟩⟩
    rw [idsToo, ids, List.append_assoc]
  others := second.others.trans first.others
  posts := by
    obtain ⟨added, posts, own⟩ := first.posts
    obtain ⟨more, postsToo, ownToo⟩ := second.posts
    refine ⟨added ++ more, ?_, List.forall_mem_append.2 ⟨own, ownToo⟩⟩
    rw [postsToo, posts, List.append_assoc]

theorem of_grown {job : Job} (grown : s.Grown job t) (posts : t.posts = s.posts) :
    s.WrittenFor job.id t where
  ids := ⟨[job.id], by simp [grown.rows], by simp⟩
  others := by simp [grown.rows]
  posts := ⟨[], by simp [posts], by simp⟩

theorem of_update {job : Job} {written : Bool} {jobs : JobStore}
    (updated : s.jobs.update job = .ok (written, jobs)) :
    s.WrittenFor job.id { s with jobs } := by
  obtain ⟨row, _, ⟨_, _, rfl⟩ | ⟨_, _, replaced⟩⟩ := JobStore.update_eq_ok updated
  · exact .refl s _
  · refine ⟨⟨[], ?_, by simp⟩, ?_, ⟨[], by simp, by simp⟩⟩
    · rw [List.append_nil, replaced, JobStore.map_id_replace]
    · rw [replaced, JobStore.filter_replace]

theorem of_insert {post : Post} {posts : PostStore} (inserted : s.posts.insert post = .ok posts) :
    s.WrittenFor post.jobId { s with posts } where
  ids := ⟨[], by simp, by simp⟩
  others := rfl
  posts := ⟨[post], (PostStore.insert_eq_ok inserted).2, by simp⟩

/-- At most one row and at most one post were added. -/
theorem lengths (written : s.WrittenFor id t) (keyed : t.Keyed) :
    t.jobs.rows.length ≤ s.jobs.rows.length + 1 ∧
      t.posts.rows.length ≤ s.posts.rows.length + 1 := by
  constructor
  · obtain ⟨added, ids, new⟩ := written.ids
    have distinct := keyed.ids
    rw [ids] at distinct
    have addedDistinct := (List.nodup_append.1 distinct).2.1
    have few : added.length ≤ 1 := by
      match added with
      | [] | [_] => simp
      | first :: second :: _ =>
        obtain rfl := new first (by simp)
        obtain rfl := new second (by simp)
        simp at addedDistinct
    have length := congrArg List.length ids
    simp only [List.length_map, List.length_append] at length
    omega
  · obtain ⟨added, posts, own⟩ := written.posts
    have single := keyed.single id
    have all : added.filter (·.jobId == id) = added :=
      List.filter_eq_self.2 fun post member => by simp [own post member]
    rw [PostStore.of, posts, List.filter_append, List.length_append, all] at single
    rw [posts, List.length_append]
    omega

end WrittenFor

/-- The row of the job is there, and is for this account. -/
def HasFor (s : Stores) (id : JobId) (account : AccountId) : Prop :=
  ∃ row, s.jobs.find? id = some row ∧ row.accountId = account

end Stores

/-- A call that writes at most to the row and the posts of one job, which is for this account. -/
def RecordCall.WritesOnly (id : JobId) (account : AccountId) : RecordCall → Prop
  | .insertJob _ => False
  | .updateJob job => job.id = id ∧ job.accountId = account
  | .insertPost post => post.jobId = id
  | _ => True

namespace RecordCall

variable {id : JobId} {account : AccountId} {c : RecordCall}

theorem WritesNothing.writesOnly (nothing : c.WritesNothing) : c.WritesOnly id account := by
  cases c with
  | insertJob | updateJob | insertPost => cases nothing
  | _ => trivial

/-- What has the work of a job may be written to its row. -/
theorem writesOnly_of_work_eq {job candidate : Job} (same : candidate.work = job.work) :
    (updateJob candidate).WritesOnly job.id job.accountId :=
  ⟨Job.id_eq_of_work_eq same, Job.accountId_eq_of_work_eq same⟩

theorem Fails.writesOnly {job : Job} (fails : c.Fails job) :
    c.WritesOnly job.id job.accountId := by
  cases c with
  | now | findJob => trivial
  | updateJob candidate =>
    obtain ⟨message, now, marked⟩ := fails
    exact writesOnly_of_work_eq (Job.work_of_markFailure marked)
  | _ => cases fails

end RecordCall

open Syndication.Action Program

theorem Ledger.succeed_writesOnly (job : Job) (result : PublishResult) :
    (succeed job result).CallsOnly (RecordCall.WritesOnly job.id job.accountId) := by
  refine succeed_only trivial trivial (fun _ => trivial) (fun _ => trivial) ?_
  intro now candidate marked
  have same := Job.work_of_markSuccess marked
  refine ⟨RecordCall.writesOnly_of_work_eq same, fun id post made => ?_⟩
  obtain ⟨forJob, _, _⟩ := Post.ofSuccess?_eq_some made
  exact forJob.trans (Job.id_eq_of_work_eq same)

theorem Engine.complete_writesOnly (job : Job) (outcome : Except PublishError PublishResult) :
    (complete job outcome).CallsOnly
      (ServiceCall.Within (RecordCall.WritesOnly job.id job.accountId)) := by
  have fails (message : String) :
      (Ledger.fail job message).CallsOnly (RecordCall.WritesOnly job.id job.accountId) :=
    (Ledger.fail_fails job message).mono fun _ is => is.writesOnly
  cases outcome with
  | error error => exact completeFailure_only (fun _ => (·.writesOnly)) (fails _)
  | ok result =>
    simp only [complete]
    split
    · exact completeSuccess_only (fun _ => (·.writesOnly)) (Ledger.succeed_writesOnly job result)
    · exact completeFailure_only (fun _ => (·.writesOnly)) (fails _)

section

variable {s t : Stores} {id : JobId} {account : AccountId} {c : RecordCall} {answer : c.Answer}
  (only : c.WritesOnly id account) (answered : s.Fallible c answer t)
include only answered

theorem Stores.Fallible.writtenFor : s.WrittenFor id t := by
  cases answered.writes with
  | nothing => exact .refl s id
  | insertJob => cases only
  | updateJob updated =>
    obtain ⟨rfl, _⟩ := only
    exact .of_update updated
  | insertPost inserted =>
    obtain rfl := only
    exact .of_insert inserted

/-- A call that writes to one job only leaves the row of this job to its account. -/
theorem Stores.Fallible.hasFor (here : s.HasFor id account) : t.HasFor id account := by
  cases answered.writes with
  | nothing => exact here
  | insertJob => cases only
  | @updateJob job written jobs updated =>
    obtain ⟨rfl, rfl⟩ := only
    obtain ⟨row, found, ⟨_, _, rfl⟩ | ⟨_, _, replaced⟩⟩ := JobStore.update_eq_ok updated
    · exact here
    · refine ⟨job, ?_, rfl⟩
      simp [JobStore.find?_replace replaced, found, JobStore.id_of_find? found]
  | insertPost => exact here

theorem Stores.Fallible.keyed (keyed : s.Keyed) : t.Keyed := by
  cases answered.writes with
  | nothing => exact keyed
  | insertJob => cases only
  | updateJob updated =>
    obtain ⟨_, _, ⟨_, _, rfl⟩ | ⟨_, _, replaced⟩⟩ := JobStore.update_eq_ok updated
    · exact keyed
    · exact ⟨by simpa [replaced] using keyed.ids, keyed.single⟩
  | insertPost inserted => exact keyed.of_insert inserted

end

/-- How programs share the records when they all write to one job only, which has a row and is for
this account. -/
def Discipline.confined (id : JobId) (account : AccountId) : Discipline Records Stores where
  around := Stores.Fallible
  sound s := s.HasFor id account ∧ s.Keyed
  rely s t := s.WrittenFor id t
  permits _ c := c.WritesOnly id account
  refl s := .refl s id
  trans := .trans
  keeps sound only answered := ⟨answered.hasFor only sound.1, answered.keyed only sound.2⟩
  moves _ only answered := answered.writtenFor only

section

variable {id : JobId} {account : AccountId} {s : Stores}

theorem Ledger.stored_confined (sound : s.HasFor id account ∧ s.Keyed) :
    (stored id).Ensures (.confined id account)
      (fun row _ => row.id = id ∧ row.accountId = account) s := by
  unfold stored
  have finds : (Action.persisted (Records.findJob id)).Ensures (.confined id account)
      (fun found _ => ∀ row, found = some row → row.id = id ∧ row.accountId = account) s := by
    refine .persisted fun t _ sound => ⟨trivial, fun answer u answered => ?_⟩
    rintro found rfl row rfl
    obtain ⟨found, _⟩ := answered
    obtain ⟨⟨other, same, own⟩, _⟩ := sound
    obtain rfl : row = other := Option.some.inj (found.trans same)
    exact ⟨JobStore.id_of_find? same, own⟩
  refine finds.bind sound fun found t _ _ is => ?_
  cases found with
  | some row => exact .pure (is row rfl)
  | none => exact .throw

/-- A start answers a copy of the same job. -/
theorem Ledger.start_confined {job : Job} (sound : s.HasFor job.id job.accountId ∧ s.Keyed) :
    (start job).Ensures (.confined job.id job.accountId)
      (fun row _ => row.id = job.id ∧ row.accountId = job.accountId) s := by
  have permitted {α : Type} {x : Action Records α}
      (only : x.CallsOnly (RecordCall.WritesOnly job.id job.accountId)) (t : Stores) :
      x.Ensures (.confined job.id job.accountId) (fun _ _ => True) t :=
    only.ensures _ (fun _ is _ => is) t
  have reads : (Action.always Records.now).CallsOnly
      (RecordCall.WritesOnly job.id job.accountId) := .always (Yields.ask trivial)
  unfold start
  refine (permitted reads s).bind sound fun now t sound _ _ => ?_
  rcases job.markStarted_eq now with marked | ⟨started, marked, same, _⟩
  · simp only [marked]
    exact .pure ⟨rfl, rfl⟩
  · simp only [marked]
    have own := RecordCall.writesOnly_of_work_eq same
    refine (permitted (.persisted (Yields.ask own)) t).bind sound fun written u sound _ _ => ?_
    cases written with
    | true => exact .pure own
    | false => exact stored_confined sound

end

/-- How executions share the records and the accounts, when they all write to one job only and renew
its account at most. -/
abbrev Discipline.framed (id : JobId) (account : AccountId) :
    Discipline Services (Stores × AccountStore) :=
  (confined id account).withServices.beside (.custody account)

section

variable {id : JobId} {account : AccountId} {s : Stores} {accounts : AccountStore}

theorem Action.CallsOnly.framed {α : Type} {x : Action Services α}
    (only : x.CallsOnly (ServiceCall.Within (RecordCall.WritesOnly id account)))
    (custody : x.Ensures (.custody account) (fun _ _ => True) accounts) :
    x.Ensures (.framed id account) (fun _ _ => True) (s, accounts) := by
  have confined : x.Ensures (Discipline.confined id account).withServices (fun _ _ => True) s := by
    refine only.ensures _ (fun c within s => ?_) s
    cases c with
    | records c => exact within
    | _ => trivial
  exact (confined.beside custody).weaken fun _ _ _ => trivial

/-- Calls on the records save no account. -/
theorem Action.CallsOnly.onRecords_inCustody {α : Type} {x : Action Services α}
    (only : x.CallsOnly ServiceCall.IsOnRecords) :
    x.Ensures (.custody account) (fun _ _ => True) accounts :=
  only.inCustody (fun _ => not_false) account accounts

theorem ServiceCall.IsOutside.within_writesOnly {c : ServiceCall} (outside : c.IsOutside) :
    c.Within (RecordCall.WritesOnly id account) := by
  cases c with
  | records c =>
    cases c with
    | now => trivial
    | _ => cases outside
  | _ => trivial

/-- What an execution does with a job that it opened stays with this job and its account. -/
theorem Engine.carryOut_framed (engine : Engine) (request : Request) {job : Job}
    (sound : s.HasFor job.id job.accountId ∧ s.Keyed) :
    (engine.carryOut request job).Ensures (.framed job.id job.accountId) (fun _ _ => True)
      (s, accounts) := by
  unfold carryOut
  split
  · exact .pure trivial
  have starts : (Ledger.start job).toServices.Ensures (.framed job.id job.accountId)
      (fun row _ => row.id = job.id ∧ row.accountId = job.accountId) (s, accounts) :=
    ((Ledger.start_confined sound).toServices.beside
      (toServices_onRecords _).onRecords_inCustody).weaken fun _ _ is => is.1
  refine starts.bind ⟨sound, trivial⟩ fun row t sound _ same => ?_
  obtain ⟨sameId, sameAccount⟩ := same
  rw [← sameId, ← sameAccount] at sound ⊢
  split
  · exact .pure trivial
  have tells : (Announcement.started row).CallsOnly
      (RecordCall.WritesOnly row.id row.accountId) :=
    (Announcement.started_telling row).mono fun _ is => is.writesNothing.writesOnly
  have announces : (Announcement.started row).toServices.Ensures
      (.framed row.id row.accountId) (fun _ _ => True) t :=
    tells.toServices.framed (toServices_onRecords _).onRecords_inCustody
  refine announces.bind sound fun _ u sound _ _ => ?_
  have attempts : (engine.attempt row request).Ensures (.framed row.id row.accountId)
      (fun _ _ => True) u :=
    ((engine.attempt_outside row request).mono fun _ is => is.within_writesOnly).framed
      (engine.attempt_inCustody row request u.2)
  refine (Ensures.always (attempts.meets.weaken fun _ _ _ => trivial)).bind sound
    fun outcome v _ _ _ => ?_
  exact (Engine.complete_writesOnly row outcome).framed
    (complete_onRecords row outcome).onRecords_inCustody

end

/-- What all allowed calls keep of the state, a program that makes no others keeps. -/
theorem Program.Plays.kept {I : Interface} {α σ τ : Type} {around : Surroundings I σ}
    {allowed : I.Call → Prop} {post : α → Prop} {p q : Program I α} {log : List I.Exchange}
    {s t : σ} (plays : p.Plays around s log q t) (yields : p.Yields allowed post) (part : σ → τ)
    (keeps : ∀ {s t c a}, allowed c → around s c a t → part t = part s) : part t = part s := by
  induction plays with
  | stop => rfl
  | call answered _ ih =>
    obtain ⟨here, goesOn⟩ := yields () trivial trivial
    exact (ih (goesOn _ () trivial)).trans (keeps here answered)

/-- What is played with allowed calls only is played in any surroundings that answer them alike. -/
theorem Program.Plays.mono_of_yields {I : Interface} {α σ : Type} {around more : Surroundings I σ}
    {allowed : I.Call → Prop} {post : α → Prop} {p q : Program I α} {log : List I.Exchange}
    {s t : σ} (plays : p.Plays around s log q t) (yields : p.Yields allowed post)
    (subset : ∀ {s t c a}, allowed c → around s c a t → more s c a t) :
    p.Plays more s log q t := by
  induction plays with
  | stop => exact .stop _ _
  | call answered _ ih =>
    obtain ⟨here, goesOn⟩ := yields () trivial trivial
    exact .call (subset here answered) (ih (goesOn _ () trivial))

/-- The services beside a store of accounts, when any call on records or accounts may fail. -/
abbrev Stores.FallibleBeside : Surroundings Services (Stores × AccountStore) :=
  Fallible.withServices.beside AccountStore.Answers

theorem Stores.Replies.fallible {s t : Stores × AccountStore} {c : ServiceCall}
    {answer : c.Answer}
    (answered : Stores.Replies.beside AccountStore.Answers s c answer t) :
    FallibleBeside s c answer t := by
  refine ⟨?_, answered.2⟩
  cases c with
  | records c => exact Answers.fallible answered.1
  | _ => exact answered.1

namespace Ledger

variable {budget : UInt32} {request : Request} {s t : Stores} {accounts later : AccountStore}
  {calls : List Services.Exchange} {rest : Program Services (Except PublishError Job)}
  (plays : (openJob budget request).toServices.run.Plays Stores.FallibleBeside (s, accounts) calls
    rest (t, later))
include plays

/-- Opening a job touches neither posts nor accounts. -/
theorem openJob_keeps : t.posts = s.posts ∧ later = accounts := by
  have opening : (openJob budget request).toServices.CallsOnly
      (ServiceCall.OnRecords RecordCall.IsOpening) := (openJob_opening budget request).onRecords
  have kept : (t.posts, later) = (s.posts, accounts) := by
    refine plays.kept (opening.meets.weaken fun _ _ _ => trivial)
      (fun u : Stores × AccountStore => (u.1.posts, u.2)) ?_
    rintro ⟨u, _⟩ ⟨v, _⟩ c answer opens ⟨replied, looked⟩
    cases c with
    | records c =>
      obtain rfl := looked
      have writes : u.Writes c answer v := Stores.Fallible.writes replied
      cases writes with
      | nothing | insertJob | updateJob => rfl
      | insertPost => cases opens
    | _ => cases opens
  exact Prod.mk.inj kept

/-- A post is never refused while a job is opened. -/
theorem openJob_replied : (openJob budget request).toServices.run.Plays Stores.Replies s calls rest
    t := by
  have opening : (openJob budget request).toServices.CallsOnly
      (ServiceCall.OnRecords RecordCall.IsOpening) := (openJob_opening budget request).onRecords
  refine plays.first.mono_of_yields (opening.meets.weaken fun _ _ _ => trivial) ?_
  intro u v c answer opens answered
  cases c with
  | records c => exact Stores.Fallible.answers answered opens.silent.quiet.booksFailure
  | _ => cases opens

end Ledger

namespace Office

/-- What an execution leaves as it was. Take any run of an office from its beginning, any store of
accounts, and then an execution that no other task overlaps, with any answers of publishers and
token endpoints and any calls that fail with any fault and without effect, up to any of its calls.
Either it has changed nothing and has come to no value; or it has opened a job, whose row is for the
account of the request. The rows and the posts of other jobs are as they were then, no row and no
post is gone, and at most one of each was added. All other accounts are as they were too, and the
account of the job is the same but for its credentials and the time of its last change. -/
theorem execution_frame {past : OfficeLog} {office : Office} (reached : Runs {} past office)
    {engine : Engine} {request : Request} {accounts later : AccountStore}
    {calls : List Services.Exchange} {rest : Program Services (Except PublishError Execution)}
    {t : Stores} (plays : (engine.execute request).run.Plays Stores.FallibleBeside
      (office.stores, accounts) calls rest (t, later)) :
    (t = office.stores ∧ later = accounts ∧ ∀ execution, rest ≠ .done (.ok execution)) ∨
    ∃ id, engine.Resolves request calls id ∧ t.HasFor id request.accountId ∧
      office.stores.WrittenFor id t ∧
      t.jobs.rows.length ≤ office.stores.jobs.rows.length + 1 ∧
      t.posts.rows.length ≤ office.stores.posts.rows.length + 1 ∧
      AccountStore.Renewed request.accountId accounts later := by
  have sound := (reached.sound .empty).1.stores
  rw [Engine.execute_eq] at plays
  have opens : (Ledger.openJob engine.retryBudget request).toServices.Does (.alone Stores.Replies)
      Deed.of? (Leaves office.stores.jobs
        (Ledger.Opened engine.retryBudget request office.stores)) [] office.stores :=
    (Ledger.openJob_leaves sound).toServices
  rcases Action.unbind plays with ⟨p, begun, open_, none⟩ |
    ⟨job, first, second, ⟨u, mid⟩, rfl, begun, goesOn⟩
  · obtain ⟨posts, same⟩ := Ledger.openJob_keeps begun
    refine .inl ⟨?_, same, none⟩
    have leaves := opens.does.goes (Ledger.openJob_replied begun).goes
    have jobs : t.jobs = office.stores.jobs := by
      match p with
      | .done (.ok value) => exact absurd rfl (open_ value)
      | .done (.error error) | .call .. | .overflow => exact leaves
    cases t
    exact congrArg₂ Stores.mk jobs posts
  · obtain ⟨posts, rfl⟩ := Ledger.openJob_keeps begun
    have replied := Ledger.openJob_replied begun
    have opened : Ledger.Opened engine.retryBudget request office.stores job u :=
      opens.does.goes replied.goes
    obtain ⟨_, account, _⟩ := Job.matchesRequest_eq opened.fits
    have contract : (Ledger.openJob engine.retryBudget request).toServices.Ensures
        (.publishing False) _ office.stores := (Ledger.openJob_ensures sound _ request).toServices
    have soundU : u.Sound := (contract.meets.plays sound replied).1
    have here : u.HasFor job.id job.accountId := ⟨job, opened.found, rfl⟩
    have written : office.stores.WrittenFor job.id u := by
      rcases opened.origin with ⟨_, jobs⟩ | ⟨grown, _⟩
      · cases u
        obtain rfl := jobs
        obtain rfl := posts
        exact .refl _ _
      · exact .of_grown grown posts
    obtain ⟨⟨⟨has, keyed⟩, _⟩, ⟨carried, renewed⟩, _⟩ :=
      (engine.carryOut_framed request ⟨here, soundU.keyed⟩).meets.plays
        ⟨⟨here, soundU.keyed⟩, trivial⟩ goesOn
    have resolves : engine.Resolves request (first ++ second) job.id :=
      ⟨first, second, job, rfl, rfl, begun.follows⟩
    have all := written.trans carried
    obtain ⟨jobs, posts⟩ := all.lengths keyed
    rw [account] at has renewed
    exact .inr ⟨job.id, resolves, has, all, jobs, posts, renewed⟩

end Office

namespace Rehearsal.Cast

/-- A request for an account that is not there. -/
def orphaned : Request := { keyed "key-0" with accountId := ⟨.ofNat 9⟩ }

/-- A stage where the token of the only account has to be renewed before the platform takes the
video. -/
def renewing : Stage :=
  { stage [] [.published "video-1" "https://video.test/1"] with
    accounts := { rows := [expired] }
    tokenTurns := [{ outcome := .ok { accessToken := some "token-2", expiresIn := 3600 } }] }

theorem renewing_honest : renewing.Honest :=
  ⟨(stage_honest [] [.published "video-1" "https://video.test/1"]).plan,
    (stage_honest [] [.published "video-1" "https://video.test/1"]).alone, rfl⟩

/-- A session on this stage in which the request without an account has failed. -/
def bereft : Session := Session.attend { stage := renewing } (.execute engine orphaned)

theorem bereft_isRun : bereft.IsRun :=
  (Session.IsRun.of_empty renewing_honest rfl).attend _ (by simp [Task.job?])

end Rehearsal.Cast

open Rehearsal in
/-- A job has failed, and then a video is published with a renewed token. The failed job stays, one
row and one post are new, and only the credentials of the account have changed. -/
theorem Office.execution_frame_renewing : ∃ past office accounts calls execution t later,
    Runs {} past office ∧ office.stores.jobs.rows.map (·.status) = [.failed] ∧
    accounts.rows = [Cast.expired] ∧
    (Cast.engine.execute Cast.request).run.Plays Stores.FallibleBeside (office.stores, accounts)
      calls (.done (.ok execution)) (t, later) ∧
    (∃ id, Cast.engine.Resolves Cast.request calls id ∧ office.stores.WrittenFor id t) ∧
    t.jobs.rows.map (·.status) = [.failed, .success] ∧ t.posts.rows.length = 1 ∧
    (later.find? Cast.expired.id).map (·.accessToken) = some ⟨"token-2"⟩ ∧
    AccountStore.Renewed Cast.request.accountId accounts later := by
  obtain ⟨reached, honest⟩ := Cast.bereft_isRun
  obtain ⟨execution, published, _⟩ : ∃ execution,
      (Cast.bereft.stage.act (Cast.engine.execute Cast.request)).1 = some (.ok execution) ∧ true :=
    Program.exists_ok (fun _ => true) (by decide +kernel)
  have plays := (Stage.act_plays_beside honest published).mono Stores.Replies.fallible
  have before : Cast.bereft.stage.stores.jobs.rows.map (·.status) = [.failed] := by decide +kernel
  have untouched : Cast.bereft.stage.accounts.rows = [Cast.expired] := by decide +kernel
  rcases execution_frame reached plays with ⟨_, _, none⟩ |
    ⟨id, resolves, _, written, _, _, renewed⟩
  · exact absurd rfl (none execution)
  · exact ⟨_, _, _, _, execution, _, _, reached, before, untouched, plays, ⟨id, resolves, written⟩,
      by decide +kernel, by decide +kernel, by decide +kernel, renewed⟩

end Syndication
