import Mathlib.Data.List.DropRight
import Syndication.Proofs.AttemptKeys
import Syndication.Proofs.RetryRequests

namespace Syndication

namespace Text

/-- What is left of a text without leading blanks has none either. -/
theorem dropBlank_dropTrailingBlank {cs : List Char} (trimmed : dropBlank cs = cs) :
    dropBlank (dropTrailingBlank cs) = dropTrailingBlank cs := by
  obtain ⟨blanks, whole⟩ : dropTrailingBlank cs <+: cs := List.rdropWhile_prefix isBlank cs
  generalize dropTrailingBlank cs = front at whole ⊢
  cases front with
  | nil => rfl
  | cons c front =>
    subst whole
    have shown : ¬ isBlank c = true := by
      intro blank
      have shorter := List.length_dropWhile_le isBlank (front ++ blanks)
      have same := congrArg List.length trimmed
      simp only [dropBlank, List.cons_append, List.dropWhile_cons, blank, if_true] at same
      simp only [List.length_cons] at same
      omega
    simp [dropBlank, shown]

theorem dropBlank_idem (cs : List Char) : dropBlank (dropBlank cs) = dropBlank cs :=
  List.dropWhile_idempotent isBlank cs

theorem trim_trim (s : String) : trim (trim s) = trim s := by
  have front := dropBlank_dropTrailingBlank (dropBlank_idem s.toList)
  have back : dropTrailingBlank (dropTrailingBlank (dropBlank s.toList)) =
      dropTrailingBlank (dropBlank s.toList) := List.rdropWhile_idempotent isBlank _
  rw [trim, trim, String.toList_ofList, front, back]

theorem isBlankText_trim (s : String) : isBlankText (trim s) = isBlankText s := by
  have front := dropBlank_dropTrailingBlank (dropBlank_idem s.toList)
  have last : dropTrailingBlank (dropBlank s.toList) = [] ↔ dropBlank s.toList = [] := by
    rw [← dropBlank_idem s.toList, dropBlank_eq_nil_iff, List.all_eq_true, dropBlank_idem]
    exact List.rdropWhile_eq_nil_iff
  rw [Bool.eq_iff_iff, isBlankText, isBlankText, ← dropBlank_eq_nil_iff, ← dropBlank_eq_nil_iff,
    trim, String.toList_ofList, front, last]

end Text

namespace Request

theorem validate_eq_ok {request : Request} : request.validate = .ok () ↔
    Text.isBlankText request.platform = false ∧
      request.idempotencyKey.any Text.isBlankText = false ∧
      request.postType.any Text.isBlankText = false := by
  unfold validate
  split
  · simp_all
  · split
    · simp_all
    · split <;> simp_all

theorem effectivePostType_notBlank {request : Request} (valid : request.validate = .ok ()) :
    Text.isBlankText request.effectivePostType = false := by
  have postType := (validate_eq_ok.1 valid).2.2
  unfold effectivePostType
  cases type : request.postType with
  | none => decide
  | some name => simpa [type] using postType

end Request

theorem nextKey_notBlank (key : String) (attempt : UInt32) :
    Text.isBlankText (RetryEvent.nextKey key attempt) = false := by
  have shown : Text.isBlank '#' = false := by decide
  simp [Text.isBlankText, RetryEvent.nextKey_toList, attemptMark_toList, shown]

namespace RetryEvent.Continues

variable {event : RetryEvent} {job : Job} (continues : event.Continues job)
include continues

/-- The request for the next attempt is valid if the one that the job was made for was. -/
theorem nextRequest_valid (fresh : job.work.IsFresh) (id : EventId) (scheduledAt : Timestamp) :
    (event.nextRequest id scheduledAt).validate = .ok () := by
  obtain ⟨request, budget, jobId, now, valid, made⟩ := fresh
  have platform : job.platform = Text.trim request.platform := by
    simpa [Job.ofRequest] using congrArg Job.platform made
  have postType : job.postType = request.effectivePostType := by
    simpa [Job.ofRequest] using congrArg Job.postType made
  refine Request.validate_eq_ok.2 ⟨?_, ?_, ?_⟩
  · rw [nextRequest, continues.platform, platform, Text.isBlankText_trim]
    exact (Request.validate_eq_ok.1 valid).1
  · simp only [nextRequest]
    cases event.idempotencyKey with
    | none => rfl
    | some key => simp [nextKey_notBlank]
  · simp only [nextRequest, Option.any_some]
    rw [continues.postType, postType]
    exact Request.effectivePostType_notBlank valid

theorem matchesRequest (fresh : job.work.IsFresh) (id : EventId) (scheduledAt : Timestamp) :
    job.matchesRequest (event.nextRequest id scheduledAt) = true := by
  obtain ⟨request, budget, jobId, now, valid, made⟩ := fresh
  have platform : job.platform = Text.trim request.platform := by
    simpa [Job.ofRequest] using congrArg Job.platform made
  simp [Job.matchesRequest, nextRequest, Request.effectivePostType, continues.userId,
    continues.accountId, continues.contentId, continues.platform, continues.postType, platform,
    Text.trim_trim]

end RetryEvent.Continues

theorem Uuid.toJson_injective {u v : Uuid} (same : u.toJson = v.toJson) : u = v :=
  Uuid.text_injective (Json.str.inj same)

theorem UserId.toJson_injective {user other : UserId} (same : user.toJson = other.toJson) :
    user = other := by
  have text : user.text = other.text := Json.str.inj same
  cases user
  cases other
  cases text
  rfl

theorem Json.ofCount_injective {n m : UInt32} (same : Json.ofNat n.toNat = Json.ofNat m.toNat) :
    n = m :=
  UInt32.toNat_inj.1 (Int.ofNat_inj.1 (Json.int.inj same))

theorem Json.orNull_str_injective {key other : Option String}
    (same : Json.orNull .str key = Json.orNull .str other) : key = other := by
  cases key with
  | none => cases other <;> simp_all [Json.orNull]
  | some key => cases other <;> simp_all [Json.orNull]

attribute [ext] RetryEvent

/-- All of a request for a retry can be read off its envelope, and which job it is for. -/
theorem Announcement.envelope_retry_injective {job other : Job} {event more : RetryEvent}
    (same : envelope job (.retryRequested event) = envelope other (.retryRequested more)) :
    job.id = other.id ∧ event = more := by
  have correlation := congrArg (fun e => e.metadata.correlationId) same
  have payload : event.toJson = more.toJson := congrArg Envelope.payload same
  have requested : event.requestedAt = more.requestedAt := congrArg Envelope.occurredAt same
  refine ⟨JobId.text_injective (Option.some.inj correlation), ?_⟩
  simp only [RetryEvent.toJson, Json.obj.injEq, List.cons.injEq, Prod.mk.injEq, true_and,
    and_true] at payload
  obtain ⟨eventId, userId, jobId, platform, reason, contentId, accountId, postType, key, next,
    budget, _⟩ := payload
  exact RetryEvent.ext (congrArg EventId.mk (Json.str.inj eventId))
    (UserId.toJson_injective userId) (congrArg JobId.mk (Uuid.toJson_injective jobId))
    (Json.str.inj platform) (Json.str.inj reason)
    (congrArg ContentId.mk (Uuid.toJson_injective contentId))
    (congrArg AccountId.mk (Uuid.toJson_injective accountId)) (Json.str.inj postType)
    (Json.orNull_str_injective key) (Json.ofCount_injective next) (Json.ofCount_injective budget)
    requested

namespace Office

variable {log : OfficeLog} {office : Office}

/-- A request for a retry that was sent for a stored job takes up where this job ended. -/
theorem Runs.retry_continues (reached : Runs {} log office) {row : Job} {event : RetryEvent}
    (member : row ∈ office.stores.jobs.rows)
    (sent : Announcement.envelope row (.retryRequested event) ∈ log.sent) :
    event.Continues row ∧ row.status = .failed ∧ row.retryCount < row.maxRetries := by
  obtain ⟨i, sent⟩ := OfficeLog.sentBy_of_sent sent
  obtain ⟨ended, more, endedHere, same, continues, status, budget⟩ := reached.retry_origin sent rfl
  obtain ⟨sameId, rfl⟩ := Announcement.envelope_retry_injective same
  have stored := (reached.ended_stored endedHere).1
  have found := (reached.sound .empty).1.stores.find?_iff.2 ⟨member, sameId⟩
  rw [stored] at found
  cases found
  exact ⟨continues, status, budget⟩

end Office

end Syndication
