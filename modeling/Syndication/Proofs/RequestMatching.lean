import Syndication.Job.Basic
import Syndication.Proofs.Registries

namespace Syndication

theorem Registry.resolve_congr {S : Type} (registry : Registry S) {key other : String}
    (same : Platform.normalizeKey key = Platform.normalizeKey other) {publisher : S} :
    registry.resolve key = .ok publisher ↔ registry.resolve other = .ok publisher := by
  simp only [Registry.resolve_eq_ok_iff, Platform.ofKey_eq_ok_iff, same]

namespace Request

/-- A job that is made for the first request is one for the second request too. -/
def Matches (budget : UInt32) (id : JobId) (now : Timestamp) (first second : Request) : Prop :=
  (Job.ofRequest first budget id now).matchesRequest second = true

/-- What a request is for. -/
def subject (request : Request) : UserId × AccountId × ContentId × String × String :=
  (request.userId, request.accountId, request.contentId, request.effectivePostType,
    Platform.normalizeKey request.platform)

/-- The request for the same thing, sent at another time or as another attempt. -/
def resent (request : Request) (eventId : EventId) (key : Option String) (attempt : UInt32)
    (maxRetries : Option UInt32) (scheduledAt : Timestamp) : Request :=
  { request with eventId, idempotencyKey := key, attempt, maxRetries, scheduledAt }

variable {budget : UInt32} {id : JobId} {now : Timestamp} {first second : Request}

theorem matches_iff : Matches budget id now first second ↔ first.subject = second.subject := by
  simp only [Matches, Job.matchesRequest, Job.ofRequest, Bool.and_eq_true, beq_iff_eq,
    Text.sameLetters_iff, subject, Platform.normalizeKey, Prod.mk.injEq]
  grind

theorem matches_eq (budget : UInt32) (id : JobId) (now : Timestamp) :
    Matches budget id now = fun first second => first.subject = second.subject := by
  funext first second
  exact propext matches_iff

/-- Being for the same thing is an equivalence of requests. It holds exactly for requests with the
same user, account and content, the same post type, and platforms that are the same text when
blanks around them are left out and ASCII letters are large. The default budget of the job, its
identifier and its time make no difference, nor do the identifier, key, attempt, budget and time of
the requests. Requests for the same thing find the same publisher in any registry, or both find
none. -/
theorem matching_equivalence (budget : UInt32) (id : JobId) (now : Timestamp) :
    Equivalence (Matches budget id now) ∧
    (∀ first second, Matches budget id now first second ↔
      first.userId = second.userId ∧ first.accountId = second.accountId ∧
      first.contentId = second.contentId ∧
      first.effectivePostType = second.effectivePostType ∧
      Text.upper (Text.trim first.platform) = Text.upper (Text.trim second.platform)) ∧
    (∀ otherBudget otherId otherNow eventId key attempt maxRetries scheduledAt eventId' key'
        attempt' maxRetries' scheduledAt' first second,
      Matches otherBudget otherId otherNow
          (resent first eventId key attempt maxRetries scheduledAt)
          (resent second eventId' key' attempt' maxRetries' scheduledAt') ↔
        Matches budget id now first second) ∧
    ∀ (S : Type) (registry : Registry S) (first second : Request),
      Matches budget id now first second → ∀ publisher,
        registry.resolve first.platform = .ok publisher ↔
          registry.resolve second.platform = .ok publisher := by
  refine ⟨?_, fun first second => ?_, ?_, fun S registry first second same publisher => ?_⟩
  · rw [matches_eq]
    exact ⟨fun _ => rfl, Eq.symm, Eq.trans⟩
  · simp [matches_iff, subject, Platform.normalizeKey]
  · intros
    rw [matches_iff, matches_iff]
    rfl
  · exact registry.resolve_congr (congrArg (·.2.2.2.2) (matches_iff.1 same))

end Request

end Syndication
