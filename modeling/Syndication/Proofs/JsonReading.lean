import Syndication.Proofs.JsonGrammar

namespace Syndication.Json

open Text

/-- The value has at most so many levels of arrays and objects, its numbers are finite doubles, and
all of its strings and names are texts. -/
inductive Fits : Nat → Json → Prop
  | null {depth : Nat} : Fits depth .null
  | bool {depth : Nat} {b : Bool} : Fits depth (.bool b)
  | int {depth : Nat} {n : Int} : Fits depth (.int n)
  | real {depth : Nat} {d : Decimal} (finite : d.isFinite = true) : Fits depth (.real d)
  | str {depth : Nat} {s : String} : Fits depth (.str s)
  | arr {depth : Nat} {items : List Json} (each : ∀ item ∈ items, Fits depth item) :
      Fits (depth + 1) (.arr items)
  | obj {depth : Nat} {fields : List (String × Json)}
      (each : ∀ field ∈ fields, Fits depth field.2) : Fits (depth + 1) (.obj fields)

section

variable {depth : Nat}

@[simp] theorem fits_null : Fits depth .null := .null

@[simp] theorem fits_bool {b : Bool} : Fits depth (.bool b) := .bool

@[simp] theorem fits_int {n : Int} : Fits depth (.int n) := .int

@[simp] theorem fits_str {s : String} : Fits depth (.str s) := .str

@[simp] theorem not_fits_unpaired : ¬ Fits depth .unpaired := nofun

@[simp] theorem fits_real_iff {d : Decimal} : Fits depth (.real d) ↔ d.isFinite = true :=
  ⟨fun (.real finite) => finite, .real⟩

@[simp] theorem not_fits_zero_arr {items : List Json} : ¬ Fits 0 (.arr items) := nofun

@[simp] theorem not_fits_zero_obj {fields : List (String × Json)} : ¬ Fits 0 (.obj fields) := nofun

@[simp] theorem fits_arr_iff {items : List Json} :
    Fits (depth + 1) (.arr items) ↔ ∀ item ∈ items, Fits depth item :=
  ⟨fun (.arr each) => each, .arr⟩

@[simp] theorem fits_obj_iff {fields : List (String × Json)} :
    Fits (depth + 1) (.obj fields) ↔ ∀ field ∈ fields, Fits depth field.2 :=
  ⟨fun (.obj each) => each, .obj⟩

end

theorem Blank.append {before after : List Char} (blank : Blank before) (others : Blank after) :
    Blank (before ++ after) := fun c member =>
  (List.mem_append.1 member).elim (blank c) (others c)

theorem blank_nil : Blank [] := fun _ none => (List.not_mem_nil none).elim

/-- The blanks in front of a text, and the text without them. -/
theorem exists_blank (cs : List Char) : ∃ blank, Blank blank ∧ cs = blank ++ skipSpace cs :=
  ⟨cs.takeWhile isSpace, List.all_eq_true.1 List.all_takeWhile,
    List.takeWhile_append_dropWhile.symm⟩

theorem Blank.skipSpace_append {blank : List Char} (isBlank : Blank blank) (cs : List Char) :
    skipSpace (blank ++ cs) = skipSpace cs := List.dropWhile_append_of_pos isBlank

theorem Blank.skipSpace_cons {blank : List Char} (isBlank : Blank blank) {c : Char}
    (visible : isSpace c = false) (cs : List Char) :
    skipSpace (blank ++ c :: cs) = c :: cs := by
  rw [isBlank.skipSpace_append, skipSpace, List.dropWhile_cons_of_neg (by simp [visible])]

theorem skipSpace_visible {c : Char} (visible : isSpace c = false) (cs : List Char) :
    skipSpace (c :: cs) = c :: cs := blank_nil.skipSpace_cons visible cs

theorem skipSpace_skipSpace (cs : List Char) : skipSpace (skipSpace cs) = skipSpace cs := by
  obtain ⟨blank, isBlank, same⟩ := exists_blank cs
  conv_rhs => rw [same, isBlank.skipSpace_append]

theorem Blank.endsNumber {blank rest : List Char} (isBlank : Blank blank)
    (ends : EndsNumber rest) : EndsNumber (blank ++ rest) := by
  cases blank with
  | nil => exact ends
  | cons c blank =>
    rintro _ ⟨⟩
    have space : isSpace c = true := isBlank c (by simp)
    simp only [isSpace, Bool.or_eq_true, beq_iff_eq] at space
    rcases space with ((rfl | rfl) | rfl) | rfl <;> decide

theorem Padded.blank {json : Json} {cs blank : List Char} (padded : Padded json cs)
    (isBlank : Blank blank) : Padded json (blank ++ cs) := by
  obtain ⟨before, spells, after⟩ := padded
  rw [← List.append_assoc]
  exact .intro (isBlank.append before) spells after

theorem Items.blank {items : List Json} {cs blank : List Char} (each : Items items cs)
    (isBlank : Blank blank) : Items items (blank ++ cs) := by
  cases each with
  | one padded => exact .one (padded.blank isBlank)
  | cons padded others =>
    rw [← List.append_assoc]
    exact .cons (padded.blank isBlank) others

theorem Field.blank {field : String × Json} {cs blank : List Char} (isField : Field field cs)
    (isBlank : Blank blank) : Field field (blank ++ cs) := by
  obtain ⟨before, quoted, after, padded⟩ := isField
  rw [← List.append_assoc]
  exact .intro (isBlank.append before) quoted after padded

theorem Fields.blank {fields : List (String × Json)} {cs blank : List Char}
    (each : Fields fields cs) (isBlank : Blank blank) : Fields fields (blank ++ cs) := by
  cases each with
  | one isField => exact .one (isField.blank isBlank)
  | cons isField others =>
    rw [← List.append_assoc]
    exact .cons (isField.blank isBlank) others

theorem mapM_eq_some_iff {α β : Type} {f : α → Option β} {items : List α} {values : List β} :
    items.mapM f = some values ↔
      List.Forall₂ (fun item value => f item = some value) items values := by
  induction items generalizing values with
  | nil => cases values <;> simp
  | cons item items ih => cases values <;> simp [Option.bind_eq_some_iff, ih]

/-- An object that a document can have has names that are texts. -/
theorem Fits.of_ofFields {depth : Nat} {fields : List (Option String × Json)}
    (fits : Fits depth (ofFields fields)) :
    ∃ named : List (String × Json), fields = named.map (fun field => (some field.1, field.2)) ∧
      ∀ field ∈ named, Fits (depth - 1) field.2 := by
  unfold ofFields at fits
  split at fits
  · rename_i named found
    cases fits with
    | obj each =>
      have same : List.Forall₂ (· = ·) fields (named.map fun field => (some field.1, field.2)) := by
        rw [List.forall₂_map_right_iff]
        refine (mapM_eq_some_iff.1 found).imp fun field named is => ?_
        obtain ⟨text, given, rfl⟩ := Option.map_eq_some_iff.1 is
        rw [← given]
      exact ⟨named, List.forall₂_eq_eq_eq ▸ same, each⟩
  · cases fits

theorem readWord_sound {word : String} {value json : Json} {cs rest : List Char}
    (read : readWord word value cs = some (json, rest)) :
    json = value ∧ cs = word.toList ++ rest := by
  obtain ⟨after, found, same⟩ := Option.map_eq_some_iff.1 read
  cases same
  exact ⟨rfl, Text.afterMark?_eq_some_iff.1 found⟩

mutual

/-- What a value is read from, with the blanks around it, spells the value. -/
theorem readValue_sound : ∀ (fuel : Nat) {depth : Nat} {cs rest : List Char} {json : Json},
    readValue fuel cs = some (json, rest) → Fits depth json →
      ∃ front, Padded json front ∧ cs = front ++ skipSpace rest
  | fuel + 1, depth, cs, rest, json, read, fits => by
    obtain ⟨before, isBefore, same⟩ := exists_blank cs
    obtain ⟨after, isAfter, follows⟩ := exists_blank rest
    suffices ∃ front, Spells json front ∧ skipSpace cs = front ++ rest by
      obtain ⟨front, spells, skipped⟩ := this
      refine ⟨_, .intro isBefore spells isAfter, ?_⟩
      rw [List.append_assoc, List.append_assoc, ← follows, ← skipped, ← same]
    rw [readValue] at read
    -- The first visible character tells what the value is: a quote, a sign, a bracket, a brace, one
    -- of the three words, or a number.
    split at read
    · rename_i inside opened
      obtain ⟨⟨text, _⟩, literal, made⟩ := Option.map_eq_some_iff.1 read
      cases made
      cases text with
      | none => cases fits
      | some s =>
        obtain ⟨letters, isInside, rfl⟩ := readLiteral_sound literal
        exact ⟨_, .str ⟨letters, isInside, rfl⟩, by simp [opened]⟩
    · rename_i opened
      obtain ⟨front, number, rfl⟩ := readNumber_sound read
      exact ⟨_, .negative number, opened⟩
    · rename_i inside opened
      obtain ⟨blank, isBlank, within⟩ := exists_blank inside
      split at read
      · rename_i closed
        cases read
        exact ⟨_, .noItems isBlank, by rw [opened, within, closed]; simp⟩
      · obtain ⟨⟨items, _⟩, readAll, made⟩ := Option.map_eq_some_iff.1 read
        cases made
        cases fits with
        | arr each =>
          obtain ⟨front, spells, skipped⟩ := readItems_sound fuel readAll each
          exact ⟨_, .arr (spells.blank isBlank), by rw [opened, within, skipped]; simp⟩
    · rename_i inside opened
      obtain ⟨blank, isBlank, within⟩ := exists_blank inside
      split at read
      · rename_i closed
        cases read
        exact ⟨_, .noFields isBlank, by rw [opened, within, closed]; simp⟩
      · obtain ⟨⟨fields, _⟩, readAll, made⟩ := Option.map_eq_some_iff.1 read
        cases made
        obtain ⟨named, rfl, each⟩ := fits.of_ofFields
        obtain ⟨front, spells, skipped⟩ := readFields_sound fuel readAll each
        rw [ofFields_texts]
        exact ⟨_, .obj (spells.blank isBlank), by rw [opened, within, skipped]; simp⟩
    · rename_i opened
      obtain ⟨rfl, rfl⟩ := readWord_sound read
      exact ⟨_, .null, opened⟩
    · rename_i opened
      obtain ⟨rfl, rfl⟩ := readWord_sound read
      exact ⟨_, .boolTrue, opened⟩
    · rename_i opened
      obtain ⟨rfl, rfl⟩ := readWord_sound read
      exact ⟨_, .boolFalse, opened⟩
    · obtain ⟨front, number, skipped⟩ := readNumber_sound read
      exact ⟨front, .positive number, skipped⟩

theorem readItems_sound : ∀ (fuel : Nat) {depth : Nat} {cs rest : List Char} {items : List Json},
    readItems fuel cs = some (items, rest) → (∀ item ∈ items, Fits depth item) →
      ∃ front, Items items front ∧ cs = front ++ ']' :: rest
  | fuel + 1, depth, cs, rest, items, read, fits => by
    rw [readItems] at read
    obtain ⟨⟨item, after⟩, readOne, goesOn⟩ := Option.bind_eq_some_iff.1 read
    dsimp only at goesOn
    split at goesOn
    · rename_i closed
      cases goesOn
      obtain ⟨front, padded, rfl⟩ := readValue_sound fuel readOne (fits item (by simp))
      exact ⟨front, .one padded, by rw [closed]⟩
    · rename_i others comma
      obtain ⟨⟨later, _⟩, readOthers, made⟩ := Option.bind_eq_some_iff.1 goesOn
      cases made
      obtain ⟨front, padded, rfl⟩ := readValue_sound fuel readOne (fits item (by simp))
      obtain ⟨tail, each, rfl⟩ := readItems_sound fuel readOthers fun other member =>
        fits other (List.mem_cons_of_mem _ member)
      exact ⟨_, .cons padded each, by rw [comma]; simp⟩
    · cases goesOn

theorem readFields_sound : ∀ (fuel : Nat) {depth : Nat} {cs rest : List Char}
    {fields : List (String × Json)},
    readFields fuel cs = some (fields.map fun field => (some field.1, field.2), rest) →
      (∀ field ∈ fields, Fits depth field.2) →
      ∃ front, Fields fields front ∧ cs = front ++ '\x7d' :: rest
  | fuel + 1, depth, cs, rest, fields, read, fits => by
    obtain ⟨before, isBefore, same⟩ := exists_blank cs
    rw [readFields] at read
    split at read
    · rename_i literal opened
      obtain ⟨⟨name, afterName⟩, readName, goesOn⟩ := Option.bind_eq_some_iff.1 read
      obtain ⟨after, isAfter, toColon⟩ := exists_blank afterName
      dsimp only at goesOn
      split at goesOn
      · rename_i given colon
        obtain ⟨⟨value, afterValue⟩, readOne, goesOn⟩ := Option.bind_eq_some_iff.1 goesOn
        -- Whether the field is the last one is seen only after its value.
        have head : ∀ text, name = some text → Fits depth value →
            ∃ front, Field (text, value) front ∧ cs = front ++ skipSpace afterValue := by
          rintro text rfl fitsValue
          obtain ⟨letters, isInside, rfl⟩ := readLiteral_sound readName
          obtain ⟨front, padded, rfl⟩ := readValue_sound fuel readOne fitsValue
          refine ⟨_, .intro isBefore ⟨letters, isInside, rfl⟩ isAfter padded, ?_⟩
          rw [same, opened, toColon, colon]
          simp
        dsimp only at goesOn
        split at goesOn
        · rename_i closed
          simp only [Option.pure_def, Option.some.injEq, Prod.mk.injEq] at goesOn
          obtain ⟨made, rfl⟩ := goesOn
          obtain ⟨⟨text, given⟩, rfl, made⟩ := List.map_eq_singleton_iff.1 made.symm
          cases made
          obtain ⟨front, isField, rfl⟩ := head text rfl (fits _ (by simp))
          exact ⟨front, .one isField, by rw [closed]⟩
        · rename_i others comma
          obtain ⟨⟨later, _⟩, readOthers, made⟩ := Option.bind_eq_some_iff.1 goesOn
          simp only [Option.pure_def, Option.some.injEq, Prod.mk.injEq] at made
          obtain ⟨made, rfl⟩ := made
          obtain ⟨⟨text, given⟩, named, rfl, made, rfl⟩ := List.map_eq_cons_iff.1 made.symm
          cases made
          obtain ⟨front, isField, rfl⟩ := head text rfl (fits _ (by simp))
          obtain ⟨tail, each, rfl⟩ := readFields_sound fuel readOthers fun other member =>
            fits other (List.mem_cons_of_mem _ member)
          exact ⟨_, .cons isField each, by rw [comma]; simp⟩
        · cases goesOn
      · cases goesOn
    · cases read

end

theorem Whole.head {whole : List Char} (isWhole : Whole whole) :
    ∃ c cs, whole = c :: cs ∧ isDigit c = true := by
  obtain ⟨c, cs, rfl⟩ := List.exists_cons_of_ne_nil isWhole.1.1
  exact ⟨c, cs, rfl, isWhole.1.2 c (by simp)⟩

theorem Number.head {negative : Bool} {json : Json} {cs : List Char}
    (number : Number negative json cs) : ∃ c ds, cs = c :: ds ∧ isDigit c = true := by
  cases number with
  | integer isWhole => exact isWhole.head
  | real isWhole =>
    obtain ⟨c, ds, rfl, digit⟩ := isWhole.head
    exact ⟨c, _, rfl, digit⟩

/-- No value begins with a blank, or like the end of an array. -/
theorem Spells.head {json : Json} {cs : List Char} (spells : Spells json cs) :
    ∃ c ds, cs = c :: ds ∧ isSpace c = false ∧ c ≠ ']' := by
  cases spells with
  | positive number =>
    obtain ⟨c, ds, rfl, digit⟩ := number.head
    refine ⟨c, ds, rfl, isSpace_of_isDigit digit, ?_⟩
    rintro rfl
    cases digit
  | str quoted =>
    obtain ⟨inside, _, rfl⟩ := quoted
    exact ⟨_, _, rfl, rfl, by decide⟩
  | _ => exact ⟨_, _, rfl, rfl, by decide⟩

theorem Spells.skipSpace {json : Json} {cs blank : List Char} (spells : Spells json cs)
    (isBlank : Blank blank) (rest : List Char) :
    skipSpace (blank ++ (cs ++ rest)) = cs ++ rest := by
  obtain ⟨c, ds, rfl, visible, _⟩ := spells.head
  exact isBlank.skipSpace_cons visible _

theorem Items.skipSpace_head {items : List Json} {cs : List Char} (each : Items items cs)
    (rest : List Char) : ∃ c ds, Json.skipSpace (cs ++ rest) = c :: ds ∧ c ≠ ']' := by
  have padded : ∀ {item ds}, Padded item ds → ∀ rest, ∃ c es,
      Json.skipSpace (ds ++ rest) = c :: es ∧ c ≠ ']' := by
    rintro item _ ⟨isBefore, spells, _⟩ rest
    obtain ⟨c, ds, rfl, visible, notEnd⟩ := spells.head
    rw [List.append_assoc, List.append_assoc, spells.skipSpace isBefore]
    exact ⟨c, _, rfl, notEnd⟩
  cases each with
  | one isPadded => exact padded isPadded rest
  | cons isPadded =>
    rw [List.append_assoc]
    exact padded isPadded _

theorem Fields.skipSpace_head {fields : List (String × Json)} {cs : List Char}
    (each : Fields fields cs) (rest : List Char) :
    ∃ ds, Json.skipSpace (cs ++ rest) = '"' :: ds := by
  have first : ∀ {field ds}, Field field ds → ∀ rest, ∃ es,
      Json.skipSpace (ds ++ rest) = '"' :: es := by
    rintro field _ ⟨isBefore, ⟨inside, _, rfl⟩, _, _⟩ rest
    rw [List.append_assoc, List.cons_append, List.cons_append, isBefore.skipSpace_cons rfl]
    exact ⟨_, rfl⟩
  cases each with
  | one isField => exact first isField rest
  | cons isField =>
    rw [List.append_assoc]
    exact first isField _

theorem readValue_skipSpace (fuel : Nat) (cs : List Char) :
    readValue fuel (skipSpace cs) = readValue fuel cs := by
  cases fuel with
  | zero => rw [readValue, readValue]
  | succ fuel => rw [readValue, readValue, skipSpace_skipSpace]

theorem readItems_skipSpace (fuel : Nat) (cs : List Char) :
    readItems fuel (skipSpace cs) = readItems fuel cs := by
  cases fuel with
  | zero => rw [readItems, readItems]
  | succ fuel => rw [readItems, readItems, readValue_skipSpace]

theorem readFields_skipSpace (fuel : Nat) (cs : List Char) :
    readFields fuel (skipSpace cs) = readFields fuel cs := by
  cases fuel with
  | zero => rw [readFields, readFields]
  | succ fuel => rw [readFields, readFields, skipSpace_skipSpace]

theorem Items.readValue {items : List Json} {cs rest : List Char} {fuel : Nat}
    (each : Items items cs) (read : readItems fuel (cs ++ ']' :: rest) = some (items, rest)) :
    Json.readValue (fuel + 1) ('[' :: (cs ++ ']' :: rest)) = some (.arr items, rest) := by
  obtain ⟨c, ds, skipped, notEnd⟩ := each.skipSpace_head (']' :: rest)
  rw [← readItems_skipSpace, skipped] at read
  rw [Json.readValue, Json.skipSpace, List.dropWhile_cons_of_neg (by decide)]
  simp [skipped, notEnd, read]

theorem Fields.readValue {fields : List (String × Json)} {cs rest : List Char} {fuel : Nat}
    (each : Fields fields cs)
    (read : readFields fuel (cs ++ '\x7d' :: rest) =
      some (fields.map fun field => (some field.1, field.2), rest)) :
    Json.readValue (fuel + 1) ('\x7b' :: (cs ++ '\x7d' :: rest)) = some (.obj fields, rest) := by
  obtain ⟨ds, skipped⟩ := each.skipSpace_head ('\x7d' :: rest)
  rw [← readFields_skipSpace, skipped] at read
  rw [Json.readValue, Json.skipSpace, List.dropWhile_cons_of_neg (by decide)]
  simp [skipped, read, ofFields_texts]

/-- A name is read with what stands around it, and its value is next. -/
theorem readFields_field (fuel : Nat) {name : String} {before cs after : List Char}
    (isBefore : Blank before) (quoted : Quoted name cs) (isAfter : Blank after)
    (rest : List Char) :
    readFields (fuel + 1) (before ++ (cs ++ (after ++ ':' :: rest))) =
      (readValue fuel rest).bind fun (value, left) =>
        match skipSpace left with
        | '\x7d' :: rest => some ([(some name, value)], rest)
        | ',' :: rest =>
          (readFields fuel rest).bind fun (others, rest) =>
            some ((some name, value) :: others, rest)
        | _ => none := by
  obtain ⟨inside, isInside, rfl⟩ := quoted
  have colon : skipSpace (after ++ ':' :: rest) = ':' :: rest := isAfter.skipSpace_cons rfl rest
  rw [List.cons_append, readFields, isBefore.skipSpace_cons rfl]
  simp only [List.append_assoc, List.singleton_append, readLiteral_complete isInside,
    Option.bind_eq_bind, Option.bind_some, colon]
  rfl

mutual

/-- A value is read from a text that spells it, if there is fuel for twice its length. The blanks
after it may be left over with what follows. -/
theorem readValue_complete : ∀ (fuel : Nat) {json : Json} {cs rest : List Char},
    Padded json cs → EndsNumber rest → 2 * cs.length < fuel →
      ∃ left, readValue fuel (cs ++ rest) = some (json, left) ∧ skipSpace left = skipSpace rest
  | fuel + 1, json, _, rest, .intro isBefore spells isAfter, ends, enough => by
    refine ⟨_ ++ rest, ?_, isAfter.skipSpace_append rest⟩
    simp only [List.length_append] at enough
    rw [List.append_assoc, List.append_assoc, ← readValue_skipSpace, spells.skipSpace isBefore]
    replace ends := isAfter.endsNumber ends
    generalize _ ++ rest = left at ends ⊢
    cases spells with
    | null | boolTrue | boolFalse => simp [readValue, skipSpace, isSpace, readWord, afterMark?]
    | positive number =>
      obtain ⟨c, ds, rfl, digit⟩ := number.head
      rw [List.cons_append, readValue_digit digit, ← List.cons_append]
      exact readNumber_complete number ends
    | negative number =>
      rw [List.cons_append, readValue, skipSpace_visible rfl]
      exact readNumber_complete number ends
    | str quoted =>
      obtain ⟨inside, isInside, rfl⟩ := quoted
      rw [List.cons_append, readValue, skipSpace_visible rfl]
      simp [readLiteral_complete isInside]
    | noItems isBlank =>
      have skipped : skipSpace (_ ++ ']' :: left) = ']' :: left := isBlank.skipSpace_cons rfl left
      rw [List.cons_append, readValue, skipSpace_visible rfl]
      simp [skipped]
    | arr each =>
      rw [List.length_cons, List.length_append, List.length_singleton] at enough
      rw [List.cons_append, List.append_assoc, List.singleton_append]
      exact each.readValue (readItems_complete fuel each (by omega))
    | noFields isBlank =>
      have skipped : skipSpace (_ ++ '\x7d' :: left) = '\x7d' :: left :=
        isBlank.skipSpace_cons rfl left
      rw [List.cons_append, readValue, skipSpace_visible rfl]
      simp [skipped]
    | obj each =>
      rw [List.length_cons, List.length_append, List.length_singleton] at enough
      rw [List.cons_append, List.append_assoc, List.singleton_append]
      exact each.readValue (readFields_complete fuel each (by omega))

theorem readItems_complete : ∀ (fuel : Nat) {items : List Json} {cs rest : List Char},
    Items items cs → 2 * (cs.length + 1) ≤ fuel →
      readItems fuel (cs ++ ']' :: rest) = some (items, rest)
  | fuel + 1, _, _, rest, .one padded, enough => by
    have ends : EndsNumber (']' :: rest) := by rintro _ ⟨⟩; decide
    obtain ⟨left, read, closed⟩ := readValue_complete fuel padded ends (by omega)
    rw [skipSpace_visible (by decide)] at closed
    simp [readItems, read, closed]
  | fuel + 1, _, _, rest, @Items.cons _ _ _ ds padded others, enough => by
    rw [List.length_append, List.length_cons] at enough
    have ends : EndsNumber (',' :: (ds ++ ']' :: rest)) := by rintro _ ⟨⟩; decide
    obtain ⟨left, read, comma⟩ := readValue_complete fuel padded ends (by omega)
    have readOthers : readItems fuel (ds ++ ']' :: rest) = some (_, rest) :=
      readItems_complete fuel others (by omega)
    rw [skipSpace_visible (by decide)] at comma
    rw [List.append_assoc, List.cons_append, readItems, read]
    simp [comma, readOthers]

theorem readFields_complete : ∀ (fuel : Nat) {fields : List (String × Json)}
    {cs rest : List Char}, Fields fields cs → 2 * (cs.length + 1) ≤ fuel →
      readFields fuel (cs ++ '\x7d' :: rest) =
        some (fields.map fun field => (some field.1, field.2), rest)
  | fuel + 1, _, _, rest, .one (.intro isBefore quoted isAfter padded), enough => by
    simp only [List.length_append, List.length_cons] at enough
    have ends : EndsNumber ('\x7d' :: rest) := by rintro _ ⟨⟩; decide
    obtain ⟨left, read, closed⟩ := readValue_complete fuel padded ends (by omega)
    rw [skipSpace_visible (by decide)] at closed
    simp only [List.append_assoc, List.cons_append]
    rw [readFields_field fuel isBefore quoted isAfter, read]
    simp [closed]
  | fuel + 1, _, _, rest, @Fields.cons _ _ _ ds (.intro isBefore quoted isAfter padded) others,
      enough => by
    simp only [List.length_append, List.length_cons] at enough
    have ends : EndsNumber (',' :: (ds ++ '\x7d' :: rest)) := by rintro _ ⟨⟩; decide
    obtain ⟨left, read, comma⟩ := readValue_complete fuel padded ends (by omega)
    have readOthers : readFields fuel (ds ++ '\x7d' :: rest) = some (_, rest) :=
      readFields_complete fuel others (by omega)
    rw [skipSpace_visible (by decide)] at comma
    simp only [List.append_assoc, List.cons_append]
    rw [readFields_field fuel isBefore quoted isAfter, read]
    simp [comma, readOthers]

end

/-- Exactly the texts that spell a value, with blanks around it, are read as the value. -/
theorem ofText?_eq_some_iff {s : String} {depth : Nat} {json : Json} (fits : Fits depth json) :
    ofText? s = some json ↔ Padded json s.toList := by
  constructor
  · intro read
    obtain ⟨⟨value, rest⟩, read, atEnd⟩ := Option.bind_eq_some_iff.1 read
    dsimp only at atEnd
    split at atEnd
    · rename_i nothing
      cases atEnd
      obtain ⟨front, padded, same⟩ := readValue_sound _ read fits
      rw [List.isEmpty_iff.1 nothing, List.append_nil] at same
      exact same ▸ padded
    · cases atEnd
  · intro padded
    have ends : EndsNumber [] := by rintro _ ⟨⟩
    obtain ⟨left, read, nothing⟩ :=
      readValue_complete (2 * s.toList.length + 2) padded ends (by omega)
    rw [List.append_nil] at read
    rw [ofText?, ofChars?, read]
    simp only [Option.bind_eq_bind, Option.bind_some, nothing]
    rfl

end Syndication.Json
