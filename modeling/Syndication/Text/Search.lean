namespace Syndication.Text

/-- What follows `mark` when the text begins with it. -/
def afterMark? (mark cs : List Char) : Option (List Char) :=
  if mark.isPrefixOf cs then some (cs.drop mark.length) else none

/-- The text before and the text after the first occurrence of `mark`. -/
def splitFirst? (mark : List Char) : List Char → Option (List Char × List Char)
  | [] => if mark.isEmpty then some ([], []) else none
  | c :: rest =>
    match afterMark? mark (c :: rest) with
    | some after => some ([], after)
    | none => (splitFirst? mark rest).map fun (before, after) => (c :: before, after)

/-- The text before and the text after the last occurrence of `mark`. -/
def splitLast? (mark : List Char) : List Char → Option (List Char × List Char)
  | [] => if mark.isEmpty then some ([], []) else none
  | c :: rest =>
    match splitLast? mark rest with
    | some (before, after) => some (c :: before, after)
    | none => (afterMark? mark (c :: rest)).map ([], ·)

/-- The text up to the first occurrence of `mark`; all of it when there is none. -/
def beforeFirst (mark cs : List Char) : List Char :=
  match splitFirst? mark cs with
  | some (before, _) => before
  | none => cs

def startsWith (mark s : String) : Bool := mark.toList.isPrefixOf s.toList

def contains (mark s : String) : Bool := (splitFirst? mark.toList s.toList).isSome

/-- The text without the run of `c` at its end. -/
def dropTrailing (c : Char) (s : String) : String :=
  .ofList (s.toList.reverse.dropWhile (· == c)).reverse

theorem afterMark?_eq_some_iff {mark cs after : List Char} :
    afterMark? mark cs = some after ↔ cs = mark ++ after := by
  simp only [afterMark?, List.isPrefixOf_iff_prefix]
  constructor
  · intro h
    split at h
    · next hp =>
      obtain ⟨t, rfl⟩ := hp
      simpa using h
    · cases h
  · rintro rfl
    simp

theorem splitFirst?_append {mark cs before after : List Char}
    (h : splitFirst? mark cs = some (before, after)) : cs = before ++ mark ++ after := by
  induction cs generalizing before with
  | nil =>
    simp only [splitFirst?] at h
    split at h
    · next hm =>
      obtain ⟨rfl, rfl⟩ := by simpa using h
      simp_all
    · cases h
  | cons c rest ih =>
    simp only [splitFirst?] at h
    split at h
    · next hm =>
      obtain ⟨rfl, rfl⟩ := by simpa using h
      simpa using afterMark?_eq_some_iff.1 hm
    · obtain ⟨⟨b, a⟩, hb, he⟩ := Option.map_eq_some_iff.1 h
      obtain ⟨rfl, rfl⟩ := by simpa using he
      simp [ih hb]

theorem startsWith_iff {mark s : String} :
    startsWith mark s = true ↔ mark.toList <+: s.toList := List.isPrefixOf_iff_prefix

theorem contains_iff {mark s : String} : contains mark s = true ↔ mark.toList <:+: s.toList := by
  unfold contains
  generalize mark.toList = mark, s.toList = cs
  induction cs with
  | nil => simp [splitFirst?, apply_ite]
  | cons c rest ih =>
    rw [List.infix_cons_iff, ← ih, splitFirst?]
    cases front : afterMark? mark (c :: rest) with
    | some after =>
      have starts : mark <+: c :: rest := ⟨after, (afterMark?_eq_some_iff.1 front).symm⟩
      simp [starts]
    | none =>
      have elsewhere : ¬ mark <+: c :: rest := by
        rintro ⟨after, parts⟩
        rw [afterMark?_eq_some_iff.2 parts.symm] at front
        cases front
      simp [elsewhere]

/-- What is taken off at the end is the run of `c`, all of it. -/
theorem dropTrailing_spec (c : Char) (s : String) :
    (∃ n, s.toList = (dropTrailing c s).toList ++ List.replicate n c) ∧
      (dropTrailing c s).toList.getLast? ≠ some c := by
  have taken : ∀ d ∈ s.toList.reverse.takeWhile (· == c), d = c := fun d member => by
    simpa using List.all_eq_true.1 List.all_takeWhile d member
  have parts := List.takeWhile_append_dropWhile (p := (· == c)) (l := s.toList.reverse)
  constructor
  · refine ⟨(s.toList.reverse.takeWhile (· == c)).length, ?_⟩
    rw [dropTrailing, String.toList_ofList, ← List.reverse_inj, List.reverse_append,
      List.reverse_reverse, List.reverse_replicate, ← List.eq_replicate_of_mem taken, parts]
  · rw [dropTrailing, String.toList_ofList, List.getLast?_reverse]
    intro last
    have kept := List.head?_dropWhile_not (· == c) s.toList.reverse
    rw [last] at kept
    simp at kept

end Syndication.Text
