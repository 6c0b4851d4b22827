import Syndication.Proofs.JsonReading

namespace Syndication.Json

theorem documentItems?_eq (depth : Nat) (items : List Json) :
    documentItems? depth items = items.mapM (document? depth) := by
  induction items with
  | nil => rfl
  | cons item items ih => simp [documentItems?, ih]

theorem documentFields?_eq (depth : Nat) (fields : List (String × Json)) :
    documentFields? depth fields =
      fields.mapM fun field => (document? depth field.2).map (field.1, ·) := by
  induction fields with
  | nil => rfl
  | cons field fields ih =>
    rw [documentFields?, ih, List.mapM_cons]
    cases document? depth field.2 <;> rfl

theorem mapM_isSome_iff {α β : Type} {f : α → Option β} {items : List α} :
    (items.mapM f).isSome ↔ ∀ item ∈ items, (f item).isSome := by
  induction items with
  | nil => simp
  | cons item items ih =>
    rw [List.mapM_cons, List.forall_mem_cons, ← ih]
    cases f item <;> cases items.mapM f <;> simp

/-- A value makes a document exactly if it fits. -/
theorem isSome_document?_iff {depth : Nat} {json : Json} :
    (document? depth json).isSome ↔ Fits depth json := by
  induction depth generalizing json with
  | zero => cases json <;> simp [document?]
  | succ depth ih =>
    cases json <;> simp [document?, documentItems?_eq, documentFields?_eq, mapM_isSome_iff, ih]

section

variable {depth : Nat} {json : Json}

theorem Fits.document (fits : Fits depth json) : ∃ document, document? depth json = some document :=
  Option.isSome_iff_exists.1 (isSome_document?_iff.2 fits)

theorem fits_of_document {document : Json} (made : document? depth json = some document) :
    Fits depth json := isSome_document?_iff.1 (Option.isSome_iff_exists.2 ⟨document, made⟩)

theorem document?_eq_int_iff {n : Int} : document? depth json = some (.int n) ↔ json = .int n := by
  cases json <;> cases depth <;> simp [document?]

theorem document?_eq_str_iff {s : String} :
    document? depth json = some (.str s) ↔ json = .str s := by
  cases json <;> cases depth <;> simp [document?]

theorem document?_eq_arr_iff {others : List Json} :
    document? depth json = some (.arr others) ↔ ∃ items, json = .arr items ∧ 0 < depth ∧
      List.Forall₂ (fun item other => document? (depth - 1) item = some other) items others := by
  cases json <;> cases depth <;> simp [document?, documentItems?_eq, mapM_eq_some_iff]

theorem document?_arr_eq_some {items : List Json} {document : Json}
    (made : document? depth (.arr items) = some document) : ∃ others, document = .arr others := by
  cases depth with
  | zero => cases made
  | succ depth =>
    obtain ⟨others, _, rfl⟩ := Option.map_eq_some_iff.1 made
    exact ⟨others, rfl⟩

end

/-- The last field of the object with this name has this value. -/
def Last (name : String) (json value : Json) : Prop :=
  ∃ before after, json = .obj (before ++ (name, value) :: after) ∧ ∀ field ∈ after, field.1 ≠ name

theorem field?_cons (name : String) (field : String × Json) (fields : List (String × Json)) :
    (Json.obj (field :: fields)).field? name =
      ((Json.obj fields).field? name).or (if field.1 = name then some field.2 else none) := by
  simp only [field?, List.reverse_cons, List.find?_append]
  cases fields.reverse.find? (·.1 == name) <;> by_cases same : field.1 = name <;> simp [same]

theorem field?_eq_none_iff {name : String} {fields : List (String × Json)} :
    (Json.obj fields).field? name = none ↔ ∀ field ∈ fields, field.1 ≠ name := by
  simp [field?]

theorem field?_eq_some_iff {name : String} {json value : Json} :
    json.field? name = some value ↔ Last name json value := by
  constructor
  · intro has
    cases json with
    | obj fields =>
      obtain ⟨field, found, rfl⟩ := Option.map_eq_some_iff.1 has
      obtain ⟨named, after, before, same, others⟩ := List.find?_eq_some_iff_append.1 found
      refine ⟨before.reverse, after.reverse, ?_, fun other member => ?_⟩
      · rw [← List.reverse_reverse fields, same]
        simp [← beq_iff_eq.1 named]
      · simpa using others other (List.mem_reverse.1 member)
    | _ => cases has
  · rintro ⟨before, after, rfl, others⟩
    induction before with
    | nil =>
      rw [List.nil_append, field?_cons, field?_eq_none_iff.2 others]
      simp
    | cons field before ih => rw [List.cons_append, field?_cons, ih, Option.some_or]

theorem mem_names_setField {given name : String} {value : Json} {fields : List (String × Json)} :
    name ∈ (setField given value fields).map (·.1) ↔ name = given ∨ name ∈ fields.map (·.1) := by
  induction fields with
  | nil => simp [setField]
  | cons field rest ih =>
    rw [setField]
    split
    · rename_i same
      simp [same]
    · rw [List.map_cons, List.mem_cons, ih, List.map_cons, List.mem_cons]
      exact or_left_comm

theorem nodup_setField {given : String} {value : Json} {fields : List (String × Json)}
    (distinct : (fields.map (·.1)).Nodup) :
    ((setField given value fields).map (·.1)).Nodup := by
  induction fields with
  | nil => simp [setField]
  | cons field rest ih =>
    rw [List.map_cons, List.nodup_cons] at distinct
    rw [setField]
    split
    · rename_i same
      exact List.nodup_cons.2 ⟨same ▸ distinct.1, distinct.2⟩
    · rename_i differs
      refine List.nodup_cons.2 ⟨?_, ih distinct.2⟩
      rw [mem_names_setField, not_or]
      exact ⟨differs, distinct.1⟩

theorem field?_setField (name : String) {given : String} (value : Json)
    {fields : List (String × Json)} (distinct : (fields.map (·.1)).Nodup) :
    (Json.obj (setField given value fields)).field? name =
      if given = name then some value else (Json.obj fields).field? name := by
  induction fields with
  | nil => rw [setField, field?_cons]; rfl
  | cons field rest ih =>
    rw [List.map_cons, List.nodup_cons] at distinct
    rw [setField]
    split
    · rename_i same
      have once : given = name → (Json.obj rest).field? name = none := by
        rintro rfl
        rw [field?_eq_none_iff]
        rintro other member again
        exact distinct.1 (List.mem_map.2 ⟨other, member, again.trans same.symm⟩)
      rw [field?_cons, field?_cons, same]
      split
      · rename_i isName
        simp [once isName]
      · rfl
    · rw [field?_cons, field?_cons, ih distinct.2]
      split <;> simp

/-- Of a repeated name the last value is kept. -/
theorem field?_foldl_setField (name : String) (fields : List (String × Json))
    {done : List (String × Json)} (distinct : (done.map (·.1)).Nodup) :
    (Json.obj (fields.foldl (fun done (name, value) => setField name value done) done)).field?
        name = ((Json.obj fields).field? name).or ((Json.obj done).field? name) := by
  induction fields generalizing done with
  | nil => rfl
  | cons field rest ih =>
    rw [List.foldl_cons, ih (nodup_setField distinct), field?_setField name _ distinct, field?_cons]
    split <;> simp

theorem field?_rel {R : Json → Json → Prop} {fields others : List (String × Json)}
    (each : List.Forall₂ (fun field other => field.1 = other.1 ∧ R field.2 other.2) fields others)
    (name : String) :
    Option.Rel R ((Json.obj fields).field? name) ((Json.obj others).field? name) := by
  induction each with
  | nil => exact .none
  | @cons field other fields others first _ ih =>
    rw [field?_cons, field?_cons, first.1]
    generalize (Json.obj fields).field? name = last at ih ⊢
    generalize (Json.obj others).field? name = otherLast at ih ⊢
    cases ih with
    | some related => exact .some related
    | none =>
      split
      · exact .some first.2
      · exact .none

/-- The document of an object has the document of the last value of each name. -/
theorem field?_document {depth : Nat} {json document : Json}
    (made : document? depth json = some document) (name : String) :
    document.field? name = (json.field? name).bind (document? (depth - 1)) := by
  cases json with
  | obj fields =>
    cases depth with
    | zero => cases made
    | succ depth =>
      obtain ⟨others, each, rfl⟩ := Option.map_eq_some_iff.1 made
      rw [documentFields?_eq, mapM_eq_some_iff] at each
      have same : Option.Rel (fun value other => document? depth value = some other)
          ((Json.obj fields).field? name) ((Json.obj others).field? name) := by
        refine field?_rel (each.imp fun field other is => ?_) name
        obtain ⟨value, isValue, rfl⟩ := Option.map_eq_some_iff.1 is
        exact ⟨rfl, isValue⟩
      have distinct : (([] : List (String × Json)).map (·.1)).Nodup := List.nodup_nil
      rw [field?_foldl_setField name others distinct, Nat.add_sub_cancel]
      generalize (Json.obj fields).field? name = last at same ⊢
      generalize (Json.obj others).field? name = otherLast at same ⊢
      cases same with
      | none => rfl
      | some isDocument => exact isDocument.symm
  | arr items =>
    obtain ⟨others, rfl⟩ := document?_arr_eq_some made
    rfl
  | real d =>
    rw [document?] at made
    split at made <;> cases made
    rfl
  | unpaired => cases made
  | null | bool | int | str =>
    cases made
    rfl

theorem document_field?_eq_some_iff {depth : Nat} {json document other : Json}
    (made : document? depth json = some document) {name : String} :
    document.field? name = some other ↔
      ∃ value, Last name json value ∧ document? (depth - 1) value = some other := by
  simp only [field?_document made, Option.bind_eq_some_iff, field?_eq_some_iff]

theorem Fits.last {depth : Nat} {json value : Json} {name : String} (fits : Fits depth json)
    (last : Last name json value) : Fits (depth - 1) value := by
  obtain ⟨before, after, rfl, _⟩ := last
  cases fits with
  | obj each => exact each (name, value) (by simp)

/-- The text spells the value, and the value is within what a document can have. -/
def Denotes (s : String) (json : Json) : Prop := Padded json s.toList ∧ Fits maxDepth json

theorem denotes_iff {s : String} {json : Json} :
    Denotes s json ↔ ofText? s = some json ∧ Fits maxDepth json :=
  and_congr_left fun fits => (ofText?_eq_some_iff fits).symm

end Syndication.Json
