import Mathlib.Data.List.Nodup
import Syndication.Broker
import Syndication.Proofs.JsonText

namespace Syndication

namespace Uuid

theorem length_group {digits : List Char} (length : digits.length = 32) :
    (group digits).length = 36 := by
  simp [group, length]

theorem ungroup?_group {digits : List Char} (noHyphen : '-' ∉ digits) :
    ungroup? (group digits) = some digits := by
  have kept : digits.filter (· ≠ '-') = digits := by
    rw [List.filter_eq_self]
    intro c member
    have : c ≠ '-' := by
      rintro rfl
      exact noHyphen member
    simpa using this
  have next : ∀ n, (digits.drop n).take 4 ++ digits.drop (n + 4) = digits.drop n := fun n => by
    rw [← List.drop_drop, List.take_append_drop]
  have whole : (group digits).filter (· ≠ '-') = digits.filter (· ≠ '-') := by
    have parts := congrArg (·.filter (· ≠ '-')) (List.take_append_drop 8 digits)
    rw [← next 8, ← next 12, ← next 16] at parts
    simpa [group] using parts
  rw [ungroup?, whole, kept, if_pos rfl]

theorem fixedHex_noHyphen (width n : Nat) : '-' ∉ Text.fixedHex width n := by
  have digit : ∀ k : Fin 16, Text.hexDigit k ≠ '-' := by decide
  induction width generalizing n with
  | zero => simp [Text.fixedHex]
  | succ width ih =>
    rw [Text.fixedHex, List.mem_append, List.mem_singleton, not_or]
    exact ⟨ih _, (digit ⟨n % 16, Nat.mod_lt n (by decide)⟩).symm⟩

theorem ofText?_text (u : Uuid) : ofText? u.text = some u := by
  have length : u.print.length = 36 := length_group (Text.length_fixedHex 32 _)
  have read : Text.readHex? (Text.fixedHex 32 u.bits.toNat) = some u.bits.toNat :=
    Text.readHex?_fixedHex u.bits.isLt
  have same : ofNat u.bits.toNat = u := by simp [ofNat]
  rw [ofText?, text, String.toList_ofList, ofChars?, length, print,
    ungroup?_group (fixedHex_noHyphen 32 _)]
  simp [ofDigits?, read, same]

@[simp] theorem ofJson?_toJson (u : Uuid) : ofJson? u.toJson = some u := by
  simp [ofJson?, toJson, Json.str?, ofText?_text]

end Uuid

@[simp] theorem JobId.ofJson?_toJson (id : JobId) : ofJson? id.toJson = some id := by
  simp [ofJson?, toJson]

@[simp] theorem AccountId.ofJson?_toJson (id : AccountId) : ofJson? id.toJson = some id := by
  simp [ofJson?, toJson]

@[simp] theorem ContentId.ofJson?_toJson (id : ContentId) : ofJson? id.toJson = some id := by
  simp [ofJson?, toJson]

@[simp] theorem UserId.ofJson?_toJson (user : UserId) : ofJson? user.toJson = some user := by
  simp [ofJson?, toJson, ofText, Json.str?, user.notBlank, Except.toOption]

@[simp] theorem EventId.ofJson?_toJson (id : EventId) : ofJson? id.toJson = some id := rfl

@[simp] theorem FailureKind.ofJson?_toJson (kind : FailureKind) :
    ofJson? kind.toJson = some kind := by
  simp [ofJson?, toJson, Json.caseName?]

@[simp] theorem Timestamp.ofJson?_toJson (t : Timestamp) : ofJson? t.toJson = some t := by
  simp [ofJson?, toJson, Json.str?, ofText?_text]

namespace Json

@[simp] theorem str?_str (s : String) : (str s).str? = some s := rfl

@[simp] theorem bool?_bool (b : Bool) : (bool b).bool? = some b := rfl

@[simp] theorem count?_ofNat (n : UInt32) : (ofNat n.toNat).count? = some n := by
  have small : n.toNat < UInt32.size := n.toNat_lt
  simp [count?, natBelow?, ofNat, small]

end Json

namespace Record

variable {fields : List (String × Json)}

/-- Among fields with different names each is found. -/
theorem lookup_of_mem {field : String × Json} (distinct : (fields.map (·.1)).Nodup)
    (member : field ∈ fields) : fields.lookup field.1 = some field.2 := by
  induction fields with
  | nil => cases member
  | cons first rest ih =>
    rw [List.map_cons, List.nodup_cons] at distinct
    rcases List.mem_cons.1 member with rfl | later
    · exact List.lookup_cons_self
    · have other : field.1 ≠ first.1 := fun same =>
        distinct.1 (List.mem_map.2 ⟨field, later, same⟩)
      rw [List.lookup_cons, beq_false_of_ne other, ih distinct.2 later]

theorem forall_lookup {known : List (String × Json)} (same : known = fields)
    (distinct : (fields.map (·.1)).Nodup) :
    ∀ field ∈ known, fields.lookup field.1 = some field.2 :=
  fun _ member => lookup_of_mem distinct (same ▸ member)

theorem ofJson?_obj (names : List String) (distinct : (fields.map (·.1)).Nodup) :
    ofJson? names (.obj fields) = some ⟨fields, true⟩ := by
  have once : ∀ name ∈ names, (fields.filter (·.1 == name)).length ≤ 1 := by
    intro name _
    have count := List.nodup_iff_count_le_one.1 distinct name
    rwa [List.count, List.countP_map, List.countP_eq_length_filter] at count
  rw [ofJson?, if_pos (by simpa using once)]

@[simp] theorem nullable_orNull (known : Option String) :
    nullable Json.str? (.orNull .str known) = some known := by
  cases known <;> rfl

end Record

section Payloads

open Json Record

-- The fields are read one by one, each from what is found under its name, before the results are
-- put together: putting them together first would read the later fields once for each earlier one.

/-- The value is an object of scalars, and `a` is read from its fields in whatever order they are
given. -/
def ReadsBack {α : Type} (decode : Json → Option α) (json : Json) (a : α) : Prop :=
  ∃ fields, json = .obj fields ∧ Flat fields ∧
    ∀ others, others.Perm fields → decode (.obj others) = some a

theorem readsBack_of_lookup {α : Type} {decode : Json → Option α} {a : α}
    {fields : List (String × Json)} (flat : Flat fields)
    (read : ∀ others : List (String × Json), (others.map (·.1)).Nodup →
      (∀ field ∈ fields, others.lookup field.1 = some field.2) → decode (.obj others) = some a) :
    ReadsBack decode (.obj fields) a :=
  ⟨fields, rfl, flat, fun others order =>
    read others (flat.perm order).distinct fun _ member =>
      lookup_of_mem (flat.perm order).distinct (order.mem_iff.2 member)⟩

@[simp] theorem isScalar_str (s : String) : (str s).IsScalar := trivial

@[simp] theorem isScalar_bool (b : Bool) : (Json.bool b).IsScalar := trivial

@[simp] theorem isScalar_ofNat (n : UInt32) : (ofNat n.toNat).IsScalar := by
  have := n.toNat_lt
  simp only [ofNat, IsScalar]
  omega

@[simp] theorem isScalar_orNull (known : Option String) : (orNull str known).IsScalar := by
  cases known <;> trivial

theorem StartedEvent.readsBack (e : StartedEvent) : ReadsBack ofJson? e.toJson e := by
  refine readsBack_of_lookup ⟨by simp, ?_⟩ fun others distinct found => ?_
  · simp [EventId.toJson, UserId.toJson, JobId.toJson, Uuid.toJson, Timestamp.toJson]
  · simp only [List.forall_mem_cons] at found
    rw [ofJson?, ofJson?_obj _ distinct, Option.bind_eq_bind, Option.bind_some]
    simp only [required, get?, found, Option.bind_some, EventId.ofJson?_toJson,
      UserId.ofJson?_toJson, JobId.ofJson?_toJson, str?_str, Timestamp.ofJson?_toJson]
    rfl

theorem SucceededEvent.readsBack (e : SucceededEvent) : ReadsBack ofJson? e.toJson e := by
  refine readsBack_of_lookup ⟨by simp, ?_⟩ fun others distinct found => ?_
  · simp [EventId.toJson, UserId.toJson, JobId.toJson, Uuid.toJson, Timestamp.toJson]
  · simp only [List.forall_mem_cons] at found
    rw [ofJson?, ofJson?_obj _ distinct, Option.bind_eq_bind, Option.bind_some]
    simp only [required, get?, found, Option.bind_some, EventId.ofJson?_toJson,
      UserId.ofJson?_toJson, JobId.ofJson?_toJson, str?_str, Timestamp.ofJson?_toJson]
    rfl

theorem FailedEvent.readsBack (e : FailedEvent) : ReadsBack ofJson? e.toJson e := by
  refine readsBack_of_lookup ⟨by simp, ?_⟩ fun others distinct found => ?_
  · simp [EventId.toJson, UserId.toJson, JobId.toJson, Uuid.toJson, Timestamp.toJson,
      FailureKind.toJson]
  · simp only [List.forall_mem_cons] at found
    rw [ofJson?, ofJson?_obj _ distinct, Option.bind_eq_bind, Option.bind_some]
    simp only [required, get?, found, Option.bind_some, EventId.ofJson?_toJson,
      UserId.ofJson?_toJson, JobId.ofJson?_toJson, str?_str, bool?_bool,
      FailureKind.ofJson?_toJson, Timestamp.ofJson?_toJson]
    rfl

theorem RetryEvent.readsBack (e : RetryEvent) : ReadsBack ofJson? e.toJson e := by
  refine readsBack_of_lookup ⟨by simp, ?_⟩ fun others distinct found => ?_
  · simp [EventId.toJson, UserId.toJson, JobId.toJson, Uuid.toJson, Timestamp.toJson,
      ContentId.toJson, AccountId.toJson]
  · simp only [List.forall_mem_cons] at found
    rw [ofJson?, ofJson?_obj _ distinct, Option.bind_eq_bind, Option.bind_some]
    simp -implicitDefEqProofs only [required, Record.optional, get?, found, Option.bind_some,
      EventId.ofJson?_toJson, UserId.ofJson?_toJson, JobId.ofJson?_toJson, str?_str,
      ContentId.ofJson?_toJson, AccountId.ofJson?_toJson, nullable_orNull, count?_ofNat,
      Timestamp.ofJson?_toJson]
    rfl

end Payloads

theorem EventMetadata.ofJson?_toJson (m : EventMetadata) : ofJson? m.toJson = some m := by
  have apart : ("user_id" == "correlation_id") = false := by simp
  obtain ⟨correlation, user⟩ := m
  cases correlation <;> cases user <;>
    rw [ofJson?, toJson, Record.ofJson?_obj _ (by simp [Json.optionalField]), Option.bind_eq_bind,
      Option.bind_some] <;>
    simp only [Record.optional, Record.get?, Json.optionalField, List.nil_append, List.cons_append,
      List.lookup_nil, List.lookup_cons, beq_self_eq_true, apart, Record.nullable,
      Json.str?_str] <;>
    rfl

theorem EventMetadata.writable (m : EventMetadata) : m.toJson.Writable := by
  obtain ⟨correlation, user⟩ := m
  cases correlation <;> cases user <;>
    simp [toJson, Json.optionalField, Json.Writable, Json.FieldsWritable]

namespace Envelope

theorem writable {e : Envelope} (payload : e.payload.Writable) : e.toJson.Writable := by
  rw [toJson, Json.Writable, Json.fieldsWritable_iff]
  simp only [List.forall_mem_cons]
  have str : ∀ s, (Json.str s).Writable := fun s => (isScalar_str s).writable
  exact ⟨str _, str _, (isScalar_ofNat _).writable, str _, str _, str _, payload,
    e.metadata.writable, List.forall_mem_nil _⟩

/-- An envelope is read back from its text if its payload is a document. -/
theorem ofText?_text {e : Envelope} (writable : e.payload.Writable)
    (document : e.payload.document? (Json.maxDepth - 1) = some e.payload) :
    ofText? e.text = some e := by
  rw [ofText?, text, Json.ofText?_text (Envelope.writable writable), Option.bind_some, toJson]
  generalize is : ([_, _, _, _, _, _, _, _] : List (String × Json)) = fields
  have distinct : (fields.map (·.1)).Nodup := by simp [← is]
  have found := Record.forall_lookup is distinct
  simp only [List.forall_mem_cons] at found
  rw [read?, Record.ofJson?_obj _ distinct, Option.bind_eq_bind, Option.bind_some]
  simp -implicitDefEqProofs only [Record.required, Record.get?, found, Option.bind_some,
    EventId.ofJson?_toJson, Json.str?_str, Json.count?_ofNat, Timestamp.ofJson?_toJson, document,
    EventMetadata.ofJson?_toJson]
  rfl

end Envelope

/-- Taking the payload as what the event is gives the event. -/
def Event.ReadsFrom (payload : Json) : Event → Prop
  | .started e => StartedEvent.ofJson? payload = some e
  | .succeeded e => SucceededEvent.ofJson? payload = some e
  | .failed e => FailedEvent.ofJson? payload = some e
  | .retryRequested e => RetryEvent.ofJson? payload = some e

/-- The payload of an event is an object of scalars, and the event is read from its fields in
whatever order they are given. -/
theorem Event.exists_fields (event : Event) :
    ∃ fields, event.payload = .obj fields ∧ Json.Flat fields ∧
      ∀ others, others.Perm fields → event.ReadsFrom (.obj others) := by
  cases event with
  | started e => exact e.readsBack
  | succeeded e => exact e.readsBack
  | failed e => exact e.readsBack
  | retryRequested e => exact e.readsBack

/-- Two objects with the same fields, which may be written in another order. -/
inductive Json.Reordered : Json → Json → Prop
  | obj {fields others : List (String × Json)} (order : fields.Perm others) :
      Reordered (.obj fields) (.obj others)

/-- What is published on a channel for an event gives back the envelope and the event, whatever the
identifiers that the envelope is given and whatever the order of the payload's fields. -/
theorem EventChannel.event_readBack (channel : EventChannel) (event : Event)
    (correlation user : String) {payload : Json} (same : payload.Reordered event.payload) :
    let sent := { ((Envelope.ofEvent event).withCorrelationId correlation).withUserId user with
      payload }
    ∃ text next, channel.send sent = .call (.publish channel.name text) next ∧
      Envelope.ofText? text = some sent ∧ event.ReadsFrom sent.payload := by
  intro sent
  obtain ⟨fields, isObject, flat, reads⟩ := event.exists_fields
  rw [isObject] at same
  cases same with
  | obj order =>
    have flat := flat.perm order
    exact ⟨sent.text, _, rfl, Envelope.ofText?_text flat.writable (flat.document? _),
      reads _ order⟩

/-- An event of a leap second, with a platform that has to be escaped, and its fields in the order
of their names. -/
theorem EventChannel.escaped_readBack :
    let event : StartedEvent :=
      ⟨.ofUuid (.ofNat 1), ⟨"user-1", by decide⟩, ⟨.ofNat 2⟩, "\"You\x01Tube\" \\ 🎥",
        ⟨-62167219201, 1500000000, by decide⟩⟩
    let payload : Json := .obj
      [("event_id", event.eventId.toJson), ("platform", .str event.platform),
        ("publish_job_id", event.jobId.toJson), ("started_at", event.startedAt.toJson),
        ("user_id", event.userId.toJson)]
    let sent := { ((Envelope.ofEvent (.started event)).withCorrelationId "job\n2").withUserId
      "user-1" with payload }
    payload.Reordered event.toJson ∧
      ∃ text next, (EventChannel.mk "events").send sent = .call (.publish "events" text) next ∧
        Envelope.ofText? text = some sent ∧ StartedEvent.ofJson? payload = some event := by
  intro event payload sent
  have same : payload.Reordered event.toJson :=
    .obj (.cons _ ((List.perm_append_singleton _ [_, _, _]).trans (.cons _ (.swap _ _ _))))
  exact ⟨same, EventChannel.event_readBack ⟨"events"⟩ (.started event) "job\n2" "user-1" same⟩

end Syndication
