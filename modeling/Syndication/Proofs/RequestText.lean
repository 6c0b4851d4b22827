import Syndication.Proofs.Envelopes

namespace Syndication

namespace Json

variable {α : Type} {name : String} {encode : α → Json} {known : Option α}

theorem mem_optionalField {field : String × Json} :
    field ∈ optionalField name encode known ↔ ∃ a, known = some a ∧ field = (name, encode a) := by
  cases known <;> simp [optionalField]

theorem names_optionalField :
    ((optionalField name encode known).map (·.1)).Sublist [name] := by
  cases known <;> simp [optionalField]

end Json

namespace Record

variable {α : Type} {fields : List (String × Json)} {name : String} {encode : α → Json}
  {known : Option α}

/-- Among fields with different names an option is found if it is there, and nothing else is found
under its name. -/
theorem lookup_of_option (distinct : (fields.map (·.1)).Nodup)
    (only : ∀ value, (name, value) ∈ fields ↔ ∃ a, known = some a ∧ value = encode a) :
    fields.lookup name = known.map encode := by
  cases known with
  | none =>
    rw [Option.map_none, List.lookup_eq_none_iff]
    rintro ⟨other, value⟩ member
    rw [bne_iff_ne]
    rintro rfl
    obtain ⟨_, absent, _⟩ := (only value).1 member
    cases absent
  | some a => exact lookup_of_mem distinct ((only _).2 ⟨a, rfl, rfl⟩)

/-- An option is read back if none of its values is written as null. -/
theorem defaultedOptional_of_get? {r : Record} {decode : Json → Option α}
    (found : r.get? name = known.map encode) (notNull : ∀ a, encode a ≠ .null)
    (reads : ∀ a, decode (encode a) = some a) : r.defaultedOptional name decode = some known := by
  cases known with
  | none => rw [defaultedOptional, defaulted, found, Option.map_none]
  | some a =>
    have given : nullable decode (encode a) = (decode (encode a)).map some := by
      rw [nullable]
      exact notNull a
    rw [defaultedOptional, defaulted, found, Option.map_some]
    simp only [given, reads, Option.map_some]

end Record

namespace Request

/-- What a request is written as. -/
def fields (request : Request) : List (String × Json) :=
  [("event_id", request.eventId.toJson), ("user_id", request.userId.toJson),
    ("content_item_id", request.contentId.toJson),
    ("connected_account_id", request.accountId.toJson), ("platform", .str request.platform),
    ("scheduled_at", request.scheduledAt.toJson)] ++
  Json.optionalField "post_type" .str request.postType ++
  Json.optionalField "idempotency_key" .str request.idempotencyKey ++
  [("attempt", .ofNat request.attempt.toNat)] ++
  Json.optionalField "max_retries" (fun n => .ofNat n.toNat) request.maxRetries

theorem toJson_eq (request : Request) : request.toJson = .obj request.fields := rfl

theorem names_fields (request : Request) :
    (request.fields.map (·.1)).Sublist fieldNames := by
  simp only [fields, List.map_append]
  exact ((((List.Sublist.refl _).append Json.names_optionalField).append
    Json.names_optionalField).append (List.Sublist.refl _)).append Json.names_optionalField

theorem flat (request : Request) : Json.Flat request.fields where
  distinct := request.names_fields.nodup (by decide)
  scalar := by
    intro field member
    simp only [fields, List.mem_append, Json.mem_optionalField, List.mem_cons, List.not_mem_nil,
      or_false] at member
    rcases member with (((fixed | ⟨_, _, rfl⟩) | ⟨_, _, rfl⟩) | rfl) | ⟨_, _, rfl⟩
    · rcases fixed with rfl | rfl | rfl | rfl | rfl | rfl <;>
        exact trivial
    all_goals simp

/-- A request is read from its fields in whatever order they are given. -/
theorem readsBack (request : Request) : ReadsBack ofJson? request.toJson request := by
  refine ⟨request.fields, request.toJson_eq, request.flat, fun others order => ?_⟩
  have distinct := (request.flat.perm order).distinct
  have found : ∀ field ∈ request.fields, others.lookup field.1 = some field.2 :=
    fun _ member => Record.lookup_of_mem distinct (order.mem_iff.2 member)
  have postType : others.lookup "post_type" = request.postType.map .str :=
    Record.lookup_of_option distinct fun value => by
      simp [order.mem_iff, fields, Json.mem_optionalField]
  have key : others.lookup "idempotency_key" = request.idempotencyKey.map .str :=
    Record.lookup_of_option distinct fun value => by
      simp [order.mem_iff, fields, Json.mem_optionalField]
  have budget : others.lookup "max_retries" = request.maxRetries.map fun n => .ofNat n.toNat :=
    Record.lookup_of_option distinct fun value => by
      simp [order.mem_iff, fields, Json.mem_optionalField]
  have attempt := found ("attempt", .ofNat request.attempt.toNat) (by simp [fields])
  have fixed := fun field member => found field
    (List.mem_append_left _ (List.mem_append_left _ (List.mem_append_left _
      (List.mem_append_left _ member))))
  simp only [List.forall_mem_cons] at fixed
  rw [ofJson?, Record.ofJson?_obj _ distinct, Option.bind_eq_bind, Option.bind_some]
  simp -implicitDefEqProofs only [Record.required, Record.get?, fixed, Option.bind_some,
    EventId.ofJson?_toJson, UserId.ofJson?_toJson, ContentId.ofJson?_toJson,
    AccountId.ofJson?_toJson, Json.str?_str, Timestamp.ofJson?_toJson, Record.defaulted, attempt,
    Json.count?_ofNat,
    Record.defaultedOptional_of_get? (r := ⟨others, true⟩) postType (by simp) Json.str?_str,
    Record.defaultedOptional_of_get? (r := ⟨others, true⟩) key (by simp) Json.str?_str,
    Record.defaultedOptional_of_get? (r := ⟨others, true⟩) budget (by simp [Json.ofNat])
      Json.count?_ofNat]
  rfl

theorem ofText?_text (request : Request) : ofText? request.text = some request := by
  obtain ⟨fields, isObject, flat, reads⟩ := request.readsBack
  rw [ofText?, text, isObject, Json.ofText?_text flat.writable, Option.bind_some]
  exact reads fields (List.Perm.refl fields)

end Request

namespace RequestQueue

theorem decode_text (request : Request) : decode request.text = .ok request := by
  rw [decode, Request.ofText?_text]

/-- The text of a request gives back the request, also when it is popped from a queue and when the
request is for the next attempt at a job. Whatever text a request was read from, the request is read
again from the text that is written for it. -/
theorem request_readBack (queue : RequestQueue) :
    (∀ request : Request, decode request.text = .ok request ∧
      ∃ next, queue.next = .call (.pop queue.list queue.seconds) next ∧
        next (.ok (some request.text)) = .done (.ok (some request))) ∧
    (∀ (event : RetryEvent) (id : EventId) (scheduledAt : Timestamp),
      decode (event.nextRequest id scheduledAt).text = .ok (event.nextRequest id scheduledAt)) ∧
    ∀ payload request, decode payload = .ok request → decode request.text = .ok request := by
  refine ⟨fun request => ⟨decode_text request, _, rfl, ?_⟩, fun event id scheduledAt =>
    decode_text _, fun _ request _ => decode_text request⟩
  change Program.done ((decode request.text).map some) = _
  rw [decode_text, Except.map]

/-- A request that spells its identifiers, its time and its platform in other ways than it is
written, with an option that is null and a count that is missing. -/
theorem oddly_spelled_readBack :
    let payload := "[\"e\\u0031\", \"user-1\",
      \"\x7b6F1C7C52-3F5E-4C55-9A55-2D0C2F1D9D10\x7d\",
      \"urn:uuid:0a4e8a2e-1b57-4f0e-8d55-5b2f0c9b7e11\", \"You\\ud83c\\udfa5Tube\",
      \"2024-05-01 12:00:60.50 +02:00\", null]"
    let request : Request :=
      ⟨⟨"e1"⟩, ⟨"user-1", by decide⟩, ⟨.ofNat 0x6f1c7c523f5e4c559a552d0c2f1d9d10⟩,
        ⟨.ofNat 0x0a4e8a2e1b574f0e8d555b2f0c9b7e11⟩, "You🎥Tube",
        ⟨1714557659, 1500000000, by decide⟩, none, none, 0, none⟩
    decode payload = .ok request ∧ payload ≠ request.text ∧ decode request.text = .ok request := by
  intro payload request
  have reads : decode payload = .ok request := by
    have found : Request.ofText? payload = some request := by decide +kernel
    rw [decode, found]
  refine ⟨reads, ?_, (request_readBack ⟨"publish", 5⟩).2.2 payload request reads⟩
  decide +kernel

end RequestQueue

end Syndication
