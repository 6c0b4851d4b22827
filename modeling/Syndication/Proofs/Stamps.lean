import Mathlib.Order.Defs.PartialOrder
import Syndication.Proofs.Rows

namespace Syndication

/-- Timestamps by time. -/
instance : Preorder Timestamp where
  le t u := u.before t = false
  lt t u := t.before u = true
  le_refl := Timestamp.before_irrefl
  le_trans t u v := by
    simp only [Timestamp.before, Bool.or_eq_false_iff, Bool.and_eq_false_iff,
      decide_eq_false_iff_not, beq_eq_false_iff_ne]
    omega
  lt_iff_le_not_ge t u := by
    simp only [Timestamp.before, Bool.or_eq_false_iff, Bool.and_eq_false_iff, Bool.or_eq_true,
      Bool.and_eq_true, decide_eq_true_eq, beq_iff_eq, decide_eq_false_iff_not, beq_eq_false_iff_ne]
    omega

instance (t u : Timestamp) : Decidable (t ≤ u) := inferInstanceAs (Decidable (u.before t = false))

namespace Job

/-- The stamps and the message of the job are those that its status calls for, and the stamps are
in order. -/
structure IsRegular (job : Job) : Prop where
  finished : job.finishedAt.isSome = true ↔ job.isTerminal = true
  success : job.status = .success → job.startedAt.isSome = true ∧ job.lastError = none
  failed : job.status = .failed → job.lastError.isSome = true
  pending : job.status = .pending → job.finishedAt = none ∧ job.lastError = none
  created : job.createdAt ≤ job.updatedAt
  started : ∀ time, job.startedAt = some time → job.createdAt ≤ time ∧ time ≤ job.updatedAt
  /-- The last change of a finished job is its end. -/
  ended : ∀ time, job.finishedAt = some time → time = job.updatedAt

theorem isRegular_ofRequest (request : Request) (budget : UInt32) (id : JobId) (now : Timestamp) :
    (ofRequest request budget id now).IsRegular where
  finished := by simp [ofRequest, isTerminal, JobStatus.isTerminal_iff]
  success impossible := by cases impossible
  failed impossible := by cases impossible
  pending _ := ⟨rfl, rfl⟩
  created := le_refl now
  started := by simp [ofRequest]
  ended := by simp [ofRequest]

section

variable {job : Job} {now : Timestamp} (regular : job.IsRegular) (later : job.updatedAt ≤ now)
include regular later

theorem IsRegular.markStarted : (job.markStarted now).1.IsRegular := by
  unfold Job.markStarted
  split
  · exact regular
  · rename_i open_
    have pending : job.status = .pending := by
      by_contra finished
      exact open_ (by simp [isTerminal_iff.2 finished])
    obtain ⟨unfinished, clean⟩ := regular.pending pending
    have created := le_trans regular.created later
    refine ⟨regular.finished, by simp [pending], by simp [pending], fun _ => ⟨unfinished, clean⟩,
      created, ?_, by simp [unfinished]⟩
    rintro _ ⟨⟩
    exact ⟨created, le_refl now⟩

theorem IsRegular.markSuccess : (job.markSuccess now).1.IsRegular := by
  unfold Job.markSuccess
  split
  · have created := le_trans regular.created later
    have inOrder : ∀ time, job.startedAt.getD now = time → job.createdAt ≤ time ∧ time ≤ now := by
      rintro _ rfl
      cases stamp : job.startedAt with
      | none => exact ⟨created, le_refl now⟩
      | some time =>
        obtain ⟨created, updated⟩ := regular.started time stamp
        exact ⟨created, le_trans updated later⟩
    refine ⟨by simp [isTerminal], by simp, by simp, by simp, created, ?_, by simp⟩
    rintro _ ⟨⟩
    exact inOrder _ rfl
  · exact regular

theorem IsRegular.markFailure (message : String) : (job.markFailure message now).1.IsRegular := by
  unfold Job.markFailure
  split
  · have created := le_trans regular.created later
    refine ⟨by simp [isTerminal], by simp, by simp, by simp, created, ?_, by simp⟩
    intro time stamp
    obtain ⟨created, updated⟩ := regular.started time stamp
    exact ⟨created, le_trans updated later⟩
  · exact regular

end

/-- The job is regular, and its last change was at one of these readings of the clock. -/
def IsTimely (readings : List Timestamp) (job : Job) : Prop :=
  job.IsRegular ∧ job.updatedAt ∈ readings

theorem IsTimely.mono {earlier readings : List Timestamp} {job : Job}
    (timely : job.IsTimely earlier) (kept : earlier ⊆ readings) : job.IsTimely readings :=
  ⟨timely.1, kept timely.2⟩

section

variable {job : Job} {now : Timestamp} {earlier readings : List Timestamp}
  (timely : job.IsTimely earlier) (later : ∀ reading ∈ earlier, reading ≤ now)
  (kept : earlier ⊆ readings) (read : now ∈ readings)
include timely later kept read

theorem IsTimely.markStarted : (job.markStarted now).1.IsTimely readings := by
  refine ⟨timely.1.markStarted (later _ timely.2), ?_⟩
  unfold Job.markStarted
  split
  · exact kept timely.2
  · exact read

theorem IsTimely.markSuccess : (job.markSuccess now).1.IsTimely readings := by
  refine ⟨timely.1.markSuccess (later _ timely.2), ?_⟩
  unfold Job.markSuccess
  split
  · exact read
  · exact kept timely.2

theorem IsTimely.markFailure (message : String) :
    (job.markFailure message now).1.IsTimely readings := by
  refine ⟨timely.1.markFailure (later _ timely.2) message, ?_⟩
  unfold Job.markFailure
  split
  · exact read
  · exact kept timely.2

end

end Job

end Syndication
