import Mathlib.Data.List.Forall2
import Syndication.Proofs.Rehearsal
import Syndication.Proofs.Rows

namespace Syndication

/-- The later job is the same one: nothing is different but its status, its stamps of start, end and
update, and its message. -/
def Job.Progresses (job later : Job) : Prop :=
  later = { job with
    status := later.status, startedAt := later.startedAt, finishedAt := later.finishedAt
    lastError := later.lastError, updatedAt := later.updatedAt }

instance (job later : Job) : Decidable (job.Progresses later) :=
  inferInstanceAs (Decidable (later = _))

theorem Job.progresses_iff {job later : Job} : job.Progresses later ↔ later.work = job.work := by
  cases job
  cases later
  simp [Progresses, work]

namespace JobStore

/-- A write of any job. -/
inductive Write where
  | insert (job : Job)
  | update (job : Job)

/-- What is answered to a write, and the store after it. The answer says whether the job was
written. -/
def carryOut (store : JobStore) : Write → Except ServiceFault Bool × JobStore
  | .insert job =>
    match store.insert job with
    | .ok after => (.ok true, after)
    | .error fault => (.error fault, store)
  | .update job =>
    match store.update job with
    | .ok (written, after) => (.ok written, after)
    | .error fault => (.error fault, store)

/-- A write with the store that it comes to. -/
structure Step where
  store : JobStore
  write : Write

def Step.answer (step : Step) : Except ServiceFault Bool := (step.store.carryOut step.write).1

def Step.after (step : Step) : JobStore := (step.store.carryOut step.write).2

/-- The steps of a sequence of writes. -/
def steps : JobStore → List Write → List Step
  | _, [] => []
  | store, write :: later => ⟨store, write⟩ :: steps (store.carryOut write).2 later

/-- No two rows have the same key. -/
def KeysApart (store : JobStore) : Prop :=
  ∀ row ∈ store.rows, ∀ other ∈ store.rows, ∀ key, row.idempotencyKey = some key →
    other.idempotencyKey = some key → row = other

/-- A lookup by key has the same answer in every order of the rows. -/
def FindsAlike (store : JobStore) : Prop :=
  ∀ (key : String) (order : List Job), order.Perm store.rows →
    order.find? (·.idempotencyKey == some key) = store.findByKey? key

/-- Every row is kept as it is, but for the progress of the one with this identifier. -/
def Keeps (id : JobId) (store after : JobStore) : Prop :=
  List.Forall₂ (fun row later => later = row ∨ row.id = id ∧ row.Progresses later)
    store.rows after.rows

/-- An update that gives a pending row the key of another row. -/
def Write.Clashes (store : JobStore) : Write → Prop
  | .insert _ => False
  | .update job => ∃ row, store.find? job.id = some row ∧ row.isTerminal = false ∧
      ∃ other ∈ store.rows, other.id ≠ job.id ∧
        ∃ key, job.idempotencyKey = some key ∧ other.idempotencyKey = some key

/-- An update that makes a pending row that of another job than it was inserted for. -/
def Write.Strays (store : JobStore) : Write → Prop
  | .insert _ => False
  | .update job => ∃ row, store.find? job.id = some row ∧ row.isTerminal = false ∧
      ¬ row.Progresses job

/-- What a write can do. -/
inductive Takes (store : JobStore) : Write → Except ServiceFault Bool → JobStore → Prop
  | refused {write : Write} {answer : Except ServiceFault Bool} : answer ≠ .ok true →
      (∀ job row, write = .update job → store.find? job.id = some row → row.isTerminal = true) →
      Takes store write answer store
  | inserted {job : Job} {after : JobStore} : after.rows = store.rows ++ [job] →
      (∀ row ∈ store.rows, row.id ≠ job.id) →
      (∀ key, job.idempotencyKey = some key → ∀ row ∈ store.rows, row.idempotencyKey ≠ some key) →
      Takes store (.insert job) (.ok true) after
  | updated {job row : Job} {after : JobStore} : store.find? job.id = some row →
      row.isTerminal = false → after.rows = replace job store.rows →
      Takes store (.update job) (.ok true) after

variable {store after : JobStore} {write : Write} {answer : Except ServiceFault Bool}

theorem carryOut_takes (store : JobStore) (write : Write) :
    store.Takes write (store.carryOut write).1 (store.carryOut write).2 := by
  cases write with
  | insert job =>
    cases inserted : store.insert job with
    | error fault =>
      simp only [carryOut, inserted]
      exact .refused (by simp) (by rintro _ _ ⟨⟩)
    | ok after =>
      simp only [carryOut, inserted]
      obtain ⟨appended, newId, newKey⟩ := insert_eq_ok inserted
      exact .inserted appended newId newKey
  | update job =>
    cases updated : store.update job with
    | error fault =>
      simp only [carryOut, updated]
      refine .refused (by simp) ?_
      rintro _ row ⟨⟩ found
      simp only [update, found] at updated
      split at updated <;> cases updated
    | ok result =>
      obtain ⟨written, after⟩ := result
      simp only [carryOut, updated]
      obtain ⟨row, found, ⟨rfl, finished, rfl⟩ | ⟨rfl, pending, replaced⟩⟩ := update_eq_ok updated
      · refine .refused (by simp) ?_
        rintro _ other ⟨⟩ again
        cases found.symm.trans again
        exact finished
      · exact .updated found pending replaced

theorem mem_replace_iff {job row : Job} {rows : List Job} : row ∈ replace job rows ↔
    (row = job ∧ ∃ old ∈ rows, old.id = job.id) ∨ (row ∈ rows ∧ row.id ≠ job.id) := by
  simp only [replace, List.mem_map]
  constructor
  · rintro ⟨old, member, is⟩
    split at is
    · next same => exact .inl ⟨is.symm, old, member, same⟩
    · next apart => exact .inr ⟨is ▸ member, is ▸ apart⟩
  · rintro (⟨rfl, old, member, same⟩ | ⟨member, apart⟩)
    · exact ⟨old, member, if_pos same⟩
    · exact ⟨row, member, if_neg apart⟩

namespace Takes

theorem ids_nodup (takes : store.Takes write answer after)
    (distinct : (store.rows.map (·.id)).Nodup) : (after.rows.map (·.id)).Nodup := by
  cases takes with
  | refused _ _ => exact distinct
  | inserted appended newId _ =>
    rw [appended, List.map_append, List.nodup_append]
    refine ⟨distinct, by simp, ?_⟩
    rintro id member _ last rfl
    obtain ⟨row, has, rfl⟩ := List.mem_map.1 member
    exact newId row has (by simpa using last)
  | updated _ _ replaced => rwa [replaced, map_id_replace]

/-- Of all writes, only an update that clashes makes two rows have one key. -/
theorem keysApart_iff (takes : store.Takes write answer after) (apart : store.KeysApart) :
    after.KeysApart ↔ ¬ write.Clashes store := by
  cases takes with
  | refused _ finished =>
    refine ⟨fun _ clash => ?_, fun _ => apart⟩
    cases write with
    | insert job => exact clash
    | update job =>
      obtain ⟨row, found, pending, _⟩ := clash
      simp [finished job row rfl found] at pending
  | @inserted job _ appended _ newKey =>
    refine ⟨fun _ clash => clash, fun _ row one other two key has hasToo => ?_⟩
    rw [appended, List.mem_append, List.mem_singleton] at one two
    rcases one with one | rfl <;> rcases two with two | rfl
    · exact apart row one other two key has hasToo
    · exact absurd has (newKey key hasToo row one)
    · exact absurd hasToo (newKey key has other two)
    · rfl
  | @updated job row _ found pending replaced =>
    simp only [KeysApart, replaced, mem_replace_iff]
    constructor
    · rintro apart ⟨_, _, _, other, member, elsewhere, key, has, hasToo⟩
      have here : ∃ old ∈ store.rows, old.id = job.id :=
        ⟨row, mem_of_find? found, id_of_find? found⟩
      have same := apart job (.inl ⟨rfl, here⟩) other (.inr ⟨member, elsewhere⟩) key has hasToo
      exact elsewhere (same ▸ rfl)
    · rintro calm one (⟨rfl, _⟩ | ⟨hasOne, outside⟩) two (⟨rfl, _⟩ | ⟨hasTwo, elsewhere⟩) key
        is isToo
      · rfl
      · exact absurd ⟨row, found, pending, two, hasTwo, elsewhere, key, is, isToo⟩ calm
      · exact absurd ⟨row, found, pending, one, hasOne, outside, key, isToo, is⟩ calm
      · exact apart one hasOne two hasTwo key is isToo

theorem unwritten (takes : store.Takes write answer after) (refused : answer ≠ .ok true) :
    after = store := by
  cases takes with
  | refused _ _ => rfl
  | inserted _ _ _ => exact absurd rfl refused
  | updated _ _ _ => exact absurd rfl refused

/-- An update leaves all rows of other jobs as they are. -/
theorem others {job : Job} (takes : store.Takes (.update job) answer after) :
    List.Forall₂ (fun row later => row.id ≠ job.id → later = row) store.rows after.rows := by
  cases takes with
  | refused _ _ => exact List.forall₂_same.2 fun _ _ _ => rfl
  | updated _ _ replaced =>
    rw [replaced, replace, List.forall₂_map_right_iff]
    exact List.forall₂_same.2 fun row _ apart => if_neg apart

/-- Of all updates, only one that strays changes more of a row than its progress. -/
theorem keeps_iff {job : Job} (takes : store.Takes (.update job) answer after)
    (distinct : (store.rows.map (·.id)).Nodup) :
    store.Keeps job.id after ↔ ¬ (Write.update job).Strays store := by
  cases takes with
  | refused _ finished =>
    refine ⟨?_, fun _ => List.forall₂_same.2 fun _ _ => .inl rfl⟩
    rintro - ⟨row, found, pending, _⟩
    simp [finished job row rfl found] at pending
  | @updated _ row _ found pending replaced =>
    have only : ∀ other ∈ store.rows, other.id = job.id → other = row := fun other member same =>
      Option.some.inj (((find?_key_iff distinct).2 ⟨member, same⟩).symm.trans found)
    rw [Keeps, replaced, replace, List.forall₂_map_right_iff, List.forall₂_same]
    constructor
    · rintro kept ⟨_, again, _, strays⟩
      cases found.symm.trans again
      have here := kept row (mem_of_find? found)
      rw [if_pos (id_of_find? found)] at here
      rcases here with rfl | ⟨_, progresses⟩
      · exact strays (Job.progresses_iff.2 rfl)
      · exact strays progresses
    · intro calm other member
      by_cases same : other.id = job.id
      · rw [if_pos same, only other member same]
        exact .inr ⟨id_of_find? found, not_not.1 fun strays => calm ⟨row, found, pending, strays⟩⟩
      · exact .inl (if_neg same)

/-- No insertion strays. -/
theorem updates_keep_iff (takes : store.Takes write answer after)
    (distinct : (store.rows.map (·.id)).Nodup) :
    (∀ job, write = .update job → store.Keeps job.id after) ↔ ¬ write.Strays store := by
  cases write with
  | insert job => simp [Write.Strays]
  | update job => simpa using takes.keeps_iff distinct

end Takes

/-- While keys are apart, an update that only brings progress cannot clash. -/
theorem not_clashes_of_not_strays (apart : store.KeysApart) (calm : ¬ write.Strays store) :
    ¬ write.Clashes store := by
  cases write with
  | insert job => exact id
  | update job =>
    rintro ⟨row, found, pending, other, member, elsewhere, key, has, hasToo⟩
    have progresses : row.Progresses job :=
      not_not.1 fun strays => calm ⟨row, found, pending, strays⟩
    have same : job.idempotencyKey = row.idempotencyKey := by
      rw [← Job.work_idempotencyKey, Job.progresses_iff.1 progresses, Job.work_idempotencyKey]
    have here := apart row (mem_of_find? found) other member key (same ▸ has) hasToo
    exact elsewhere (here ▸ id_of_find? found)

theorem keysApart_iff_findsAlike : store.KeysApart ↔ store.FindsAlike := by
  constructor
  · intro apart key order shuffled
    cases found : store.findByKey? key with
    | none =>
      rw [findByKey?, List.find?_eq_none] at found
      exact List.find?_eq_none.2 fun row member => found row (shuffled.mem_iff.1 member)
    | some row =>
      have member : row ∈ store.rows := List.mem_of_find?_eq_some found
      have has : row.idempotencyKey = some key := by simpa using List.find?_some found
      obtain ⟨other, first⟩ : ∃ other, order.find? (·.idempotencyKey == some key) = some other :=
        Option.isSome_iff_exists.1 (List.find?_isSome.2
          ⟨row, shuffled.mem_iff.2 member, by simpa using has⟩)
      have hasToo : other.idempotencyKey = some key := by simpa using List.find?_some first
      rw [first, apart other (shuffled.mem_iff.1 (List.mem_of_find?_eq_some first)) row member key
        hasToo has]
  · intro lookups row member other memberToo key has hasToo
    have front : ∀ one ∈ store.rows, one.idempotencyKey = some key →
        store.findByKey? key = some one := by
      intro one listed is
      obtain ⟨before, after, parts⟩ := List.append_of_mem listed
      rw [← lookups key (one :: (before ++ after)) (parts ▸ List.perm_middle.symm)]
      simp [is]
    exact Option.some.inj ((front row member has).symm.trans (front other memberToo hasToo))

theorem steps_ids_nodup (distinct : (store.rows.map (·.id)).Nodup) (writes : List Write) :
    ∀ step ∈ store.steps writes, (step.store.rows.map (·.id)).Nodup := by
  induction writes generalizing store with
  | nil => simp [steps]
  | cons write later ih =>
    rw [steps, List.forall_mem_cons]
    exact ⟨distinct, ih ((store.carryOut_takes write).ids_nodup distinct)⟩

theorem steps_keysApart_iff (apart : store.KeysApart) (writes : List Write) :
    (∀ step ∈ store.steps writes, step.after.KeysApart) ↔
      ∀ step ∈ store.steps writes, ¬ step.write.Clashes step.store := by
  induction writes generalizing store with
  | nil => simp [steps]
  | cons write later ih =>
    have first := (store.carryOut_takes write).keysApart_iff apart
    simp only [steps, List.forall_mem_cons]
    exact (and_congr_left' first).trans (and_congr_right fun calm => ih (first.2 calm))

theorem steps_not_clashes (apart : store.KeysApart) (writes : List Write)
    (calm : ∀ step ∈ store.steps writes, ¬ step.write.Strays step.store) :
    ∀ step ∈ store.steps writes, ¬ step.write.Clashes step.store := by
  induction writes generalizing store with
  | nil => simp [steps]
  | cons write later ih =>
    simp only [steps, List.forall_mem_cons] at calm ⊢
    have first := not_clashes_of_not_strays apart calm.1
    exact ⟨first, ih (((store.carryOut_takes write).keysApart_iff apart).2 first) calm.2⟩

/-- Any sequence of insertions and updates of any jobs, from the empty store on. No two rows ever
have the same key exactly if no update gives a pending row the key of another one. Every update
keeps all but the progress of its row exactly if none makes a pending row that of another job, and
then keys are apart as well. Whatever a write brings, a job that is not written leaves the store as
it was, and an update leaves the rows of other jobs as they were; no identifier stands twice, and
the lookup by key does not depend on the order of the rows exactly if keys are apart. -/
theorem keys_apart_iff (writes : List Write) :
    ((∀ step ∈ steps {} writes, step.after.KeysApart) ↔
      ∀ step ∈ steps {} writes, ¬ step.write.Clashes step.store) ∧
    ((∀ step ∈ steps {} writes, ∀ job, step.write = .update job →
        step.store.Keeps job.id step.after) ↔
      ∀ step ∈ steps {} writes, ¬ step.write.Strays step.store) ∧
    ((∀ step ∈ steps {} writes, ¬ step.write.Strays step.store) →
      ∀ step ∈ steps {} writes, step.after.KeysApart) ∧
    ∀ step ∈ steps {} writes,
      (step.answer ≠ .ok true → step.after = step.store) ∧
      (∀ job, step.write = .update job → List.Forall₂
        (fun row later => row.id ≠ job.id → later = row) step.store.rows step.after.rows) ∧
      (step.after.rows.map (·.id)).Nodup ∧ (step.after.KeysApart ↔ step.after.FindsAlike) := by
  have apart : ({} : JobStore).KeysApart := by rintro _ ⟨⟩
  have empty : (({} : JobStore).rows.map (·.id)).Nodup := .nil
  have distinct := steps_ids_nodup empty writes
  refine ⟨steps_keysApart_iff apart writes, ?_, fun calm => ?_, fun step member => ?_⟩
  · exact forall₂_congr fun step member =>
      (step.store.carryOut_takes step.write).updates_keep_iff (distinct step member)
  · exact (steps_keysApart_iff apart writes).2 (steps_not_clashes apart writes calm)
  · have takes := step.store.carryOut_takes step.write
    refine ⟨takes.unwritten, fun job is => ?_, takes.ids_nodup (distinct step member),
      keysApart_iff_findsAlike⟩
    rw [is] at takes
    rw [Step.after, is]
    exact takes.others

end JobStore

namespace Rehearsal.Cast

/-- The job with this number and this key. -/
def booked (number : Nat) (key : String) : Job :=
  Job.ofRequest (keyed key) Job.defaultMaxRetries ⟨.ofNat number⟩ morning

/-- The second of two jobs is given the key of the first. -/
def rekeying : JobStore.Step where
  store := ⟨[booked 1 "key-1", booked 2 "key-2"], 0⟩
  write := .update (booked 2 "key-1")

end Rehearsal.Cast

open Rehearsal in
/-- Two jobs are inserted with keys of their own, and the second one is updated with the key of the
first. The update is answered as written, two rows have one key then, and the row has another job
than before. -/
theorem JobStore.key_given_twice :
    Cast.rekeying ∈ JobStore.steps {}
      [.insert (Cast.booked 1 "key-1"), .insert (Cast.booked 2 "key-2"),
        .update (Cast.booked 2 "key-1")] ∧
    Cast.rekeying.answer = .ok true ∧ ¬ Cast.rekeying.after.KeysApart ∧
    ¬ Cast.rekeying.store.Keeps (Cast.booked 2 "key-1").id Cast.rekeying.after := by
  have written : Cast.rekeying.after.rows = [Cast.booked 1 "key-1", Cast.booked 2 "key-1"] := by
    decide +kernel
  have apart : Cast.booked 1 "key-1" ≠ Cast.booked 2 "key-1" := by decide +kernel
  refine ⟨.tail _ (.tail _ (.head _)), rfl, fun keys => ?_, fun keeps => ?_⟩
  · exact apart (keys _ (by simp [written]) _ (by simp [written]) "key-1" rfl rfl)
  · rw [Keeps, written] at keeps
    rcases keeps with _ | ⟨_, _ | ⟨kept, _⟩⟩
    rcases kept with same | ⟨_, progresses⟩
    · exact absurd same (by decide +kernel)
    · exact absurd progresses (by decide +kernel)

end Syndication
