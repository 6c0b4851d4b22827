import Syndication.Media.Directory
import Syndication.Proofs.Conduct

namespace Syndication

namespace MediaPath

/-- The path has these segments between its slashes. -/
def Cut (path : String) (parts : List (List Char)) : Prop :=
  parts ≠ [] ∧ (∀ part ∈ parts, '/' ∉ part) ∧ path.toList = ['/'].intercalate parts

/-- The path begins at the top. -/
def IsAbsolute (path : String) : Prop := path.toList.head? = some '/'

/-- The segments that do not stand for the directory they are in. -/
def steps (path : String) : List (List Char) := (segments path.toList).filter (!isHere ·)

/-- The place that a segment leads to; a place has the names on the way to it from the top, above
which there is nothing. -/
def step (place : List (List Char)) (segment : List Char) : List (List Char) :=
  if isHere segment then place
  else if isUp segment then place.dropLast
  else place ++ [segment]

def walk (place parts : List (List Char)) : List (List Char) := parts.foldl step place

theorem segments_eq_splitOn (cs : List Char) : segments cs = cs.splitOn '/' := by
  induction cs with
  | nil => rfl
  | cons c cs ih =>
    rw [segments, ih, List.splitOn_cons_eq_if_modifyHead]
    by_cases slash : c = '/'
    · simp [slash]
    · cases more : cs.splitOn '/' with
      | nil => exact absurd more (List.splitOn_ne_nil _ _)
      | cons first others => simp [slash]

theorem slash_notMem_segments {cs part : List Char} (member : part ∈ segments cs) : '/' ∉ part := by
  induction cs generalizing part with
  | nil =>
    obtain rfl := List.mem_singleton.1 member
    exact List.not_mem_nil
  | cons c cs ih =>
    rw [segments] at member
    split at member
    · rcases List.mem_cons.1 member with rfl | later
      · exact List.not_mem_nil
      · exact ih later
    · rename_i noSlash
      split at member
      · rename_i first others parts
        rcases List.mem_cons.1 member with rfl | later
        · rw [List.mem_cons, not_or]
          exact ⟨Ne.symm noSlash, ih (parts ▸ List.mem_cons_self ..)⟩
        · exact ih (parts ▸ List.mem_cons_of_mem _ later)
      · obtain rfl := List.mem_singleton.1 member
        simpa using Ne.symm noSlash

/-- Between its slashes a path has its segments and no others. -/
theorem cut_iff {path : String} {parts : List (List Char)} :
    Cut path parts ↔ segments path.toList = parts := by
  constructor
  · rintro ⟨some, apart, same⟩
    rw [same, segments_eq_splitOn, List.splitOn_intercalate _ apart some]
  · rintro rfl
    refine ⟨?_, fun part => slash_notMem_segments, ?_⟩
    · rw [segments_eq_splitOn]
      exact List.splitOn_ne_nil _ _
    · rw [segments_eq_splitOn, List.intercalate_splitOn]

theorem segments_append_slash (cs ds : List Char) :
    segments (cs ++ '/' :: ds) = segments cs ++ segments ds := by
  simp only [segments_eq_splitOn, List.splitOn_append_cons_self]

theorem join_eq (root path : String) : ∃ slash, join root path = root ++ slash ++ path ∧
    (slash = "/" ∧ root ≠ "" ∨ slash = "" ∧ (root = "" ∨ ∃ front, root = front ++ "/")) := by
  unfold join
  split
  · rename_i none
    refine ⟨"", by simp, .inr ⟨rfl, ?_⟩⟩
    rcases Bool.or_eq_true_iff.1 none with empty | slash
    · exact .inl (by simpa using empty)
    · obtain ⟨front, same⟩ := List.getLast?_eq_some_iff.1 (beq_iff_eq.1 slash)
      exact .inr ⟨.ofList front, String.toList_injective (by simp [same])⟩
  · rename_i some
    refine ⟨"/", rfl, .inl ⟨rfl, ?_⟩⟩
    rintro rfl
    exact some rfl

theorem steps_join (root path : String) : steps (join root path) = steps root ++ steps path := by
  obtain ⟨slash, same, ⟨rfl, _⟩ | ⟨rfl, rfl | ⟨front, rfl⟩⟩⟩ := join_eq root path
  · simp [steps, same, segments_append_slash]
  · simp [steps, same, segments, isHere]
  · simp [steps, same, segments_append_slash, segments, isHere]

theorem isAbsolute_join {root path : String} (relative : ¬ IsAbsolute path) :
    IsAbsolute (join root path) ↔ IsAbsolute root := by
  obtain ⟨slash, same, ⟨rfl, some⟩ | ⟨rfl, rfl | ⟨front, rfl⟩⟩⟩ := join_eq root path
  · obtain ⟨first, others, chars⟩ := List.exists_cons_of_ne_nil
      (fun none => some (String.toList_injective none) : root.toList ≠ [])
    simp [IsAbsolute, same, chars]
  · simpa [IsAbsolute, same] using relative
  · cases chars : front.toList <;> simp [IsAbsolute, same, chars]

theorem walk_append (place parts others : List (List Char)) :
    walk place (parts ++ others) = walk (walk place parts) others := List.foldl_append ..

/-- A walk on which nothing leads up stays below its start. -/
theorem prefix_walk {place parts : List (List Char)} (down : ∀ part ∈ parts, isUp part = false) :
    place <+: walk place parts := by
  induction parts generalizing place with
  | nil => exact List.prefix_rfl
  | cons part parts ih =>
    obtain ⟨first, others⟩ := List.forall_mem_cons.1 down
    have below : place <+: step place part := by
      unfold step
      split
      · exact List.prefix_rfl
      · rw [first]
        exact List.prefix_append ..
    exact below.trans (ih others)

theorem isSafe_iff {path : String} : isSafe path = true ↔
    (∃ c ∈ path.toList, Text.isBlank c = false) ∧ ¬ IsAbsolute path ∧
      ∀ parts, Cut path parts → ['.', '.'] ∉ parts := by
  simp only [cut_iff, forall_eq', isSafe, Text.isBlankText, IsAbsolute, isUp, Bool.and_eq_true,
    Bool.not_eq_true', List.all_eq_false, bne_iff_ne, ne_eq, List.any_eq_false, beq_iff_eq,
    Bool.not_eq_true, and_assoc]
  refine and_congr_right fun _ => and_congr_right fun _ => ?_
  exact ⟨fun none member => none _ member rfl, fun none part member same => none (same ▸ member)⟩

theorem resolve_eq_ok_iff {root path place : String} :
    resolve root path = .ok place ↔ isSafe path = true ∧ place = join root path := by
  unfold resolve
  split
  · rename_i safe
    exact ⟨fun same => ⟨safe, (Except.ok.inj same).symm⟩, fun both => congrArg _ both.2.symm⟩
  · rename_i outside
    exact ⟨nofun, fun both => (outside both.1).elim⟩

theorem resolve_eq_error {root path : String} (refused : ∀ place, resolve root path ≠ .ok place) :
    resolve root path = .error (.invalidPath path) := by
  unfold resolve
  split
  · rename_i safe
    exact (refused _ (resolve_eq_ok_iff.2 ⟨safe, rfl⟩)).elim
  · rfl

/-- No stop on the way from the root to the place of media is outside of the root. -/
theorem walk_of_isSafe {path : String} (safe : isSafe path = true) (root : String)
    {start stop : List (List Char)} (within : stop <+: steps path) :
    walk start (steps root) <+: walk start (steps root ++ stop) := by
  rw [walk_append]
  refine prefix_walk fun part member => ?_
  have inPath : part ∈ segments path.toList :=
    (List.mem_filter.1 (within.subset member)).1
  simp only [isSafe, Bool.and_eq_true, Bool.not_eq_true', List.any_eq_false] at safe
  simpa using safe.2 part inPath

end MediaPath

namespace MediaDirectory

open MediaPath

variable {directory : MediaDirectory} {path place : String} {log : List Files.Exchange}

theorem download_asks {rest : Program Files (Except MediaError (List UInt8))}
    (accepted : resolve directory.root path = .ok place)
    (follows : (directory.download path).Follows log rest) :
    ∀ exchange ∈ log, exchange.1 = .read place := by
  rw [download, accepted] at follows
  cases follows with
  | stop => exact List.forall_mem_nil _
  | call ended =>
    cases ended
    exact List.forall_mem_singleton.2 rfl

theorem contentType_asks {rest : Program Files (Except MediaError String)}
    (accepted : resolve directory.root path = .ok place)
    (follows : (directory.contentType path).Follows log rest) :
    ∀ exchange ∈ log, exchange.1 = .doesExist place := by
  rw [contentType, accepted] at follows
  cases follows with
  | stop => exact List.forall_mem_nil _
  | @call _ _ answer _ _ ended =>
    match answer with
    | .ok true | .ok false | .error fault =>
      cases ended
      exact List.forall_mem_singleton.2 rfl

/-- Media below any root, by any path. A path is accepted exactly if it has a character that is no
blank, does not begin at the top and has no segment of two dots. The place of media with an accepted
path is the root with the path behind it, and no stop on the way from the root to the place is
outside of the root, wherever the walk to the root began; nothing is asked of the files but what is
at this place. A path that is not accepted is refused with itself, and nothing is asked at all. -/
theorem media_confined (directory : MediaDirectory) (path : String) :
    ((∃ place, resolve directory.root path = .ok place) ↔
      (∃ c ∈ path.toList, Text.isBlank c = false) ∧ ¬ IsAbsolute path ∧
        ∀ parts, Cut path parts → ['.', '.'] ∉ parts) ∧
    (∀ place, resolve directory.root path = .ok place →
      (∃ slash, place = directory.root ++ slash ++ path ∧ (slash = "/" ∨ slash = "")) ∧
      steps place = steps directory.root ++ steps path ∧
      (IsAbsolute place ↔ IsAbsolute directory.root) ∧
      (∀ start stop, stop <+: steps path →
        walk start (steps directory.root) <+: walk start (steps directory.root ++ stop)) ∧
      (∀ log rest, (directory.download path).Follows log rest →
        ∀ exchange ∈ log, exchange.1 = .read place) ∧
      ∀ log rest, (directory.contentType path).Follows log rest →
        ∀ exchange ∈ log, exchange.1 = .doesExist place) ∧
    ((∀ place, resolve directory.root path ≠ .ok place) →
      directory.download path = .done (.error (.invalidPath path)) ∧
      directory.contentType path = .done (.error (.invalidPath path))) := by
  refine ⟨?_, fun place accepted => ?_, fun refused => ?_⟩
  · rw [← isSafe_iff]
    exact ⟨fun ⟨_, accepted⟩ => (resolve_eq_ok_iff.1 accepted).1,
      fun safe => ⟨_, resolve_eq_ok_iff.2 ⟨safe, rfl⟩⟩⟩
  · obtain ⟨safe, rfl⟩ := resolve_eq_ok_iff.1 accepted
    obtain ⟨slash, same, is⟩ := join_eq directory.root path
    exact ⟨⟨slash, same, is.imp And.left And.left⟩, steps_join ..,
      isAbsolute_join (isSafe_iff.1 safe).2.1,
      fun start stop within => walk_of_isSafe safe _ within,
      fun log rest => download_asks accepted, fun log rest => contentType_asks accepted⟩
  · rw [download, contentType, resolve_eq_error refused]
    exact ⟨rfl, rfl⟩

/-- Three dots are a name, and so are two with a blank behind them; a path out of the root and back
is refused. -/
theorem media_confined_lookalikes :
    resolve "./media/" "a//./.../.. /b.png" = .ok "./media/a//./.../.. /b.png" ∧
    (∀ stop, stop <+: steps "a//./.../.. /b.png" →
      ["srv".toList, "media".toList] <+: walk ["srv".toList] (steps "./media/" ++ stop)) ∧
    MediaDirectory.download ⟨"./media/"⟩ "a/../b" = .done (.error (.invalidPath "a/../b")) := by
  have accepted : resolve "./media/" "a//./.../.. /b.png" = .ok "./media/a//./.../.. /b.png" :=
    resolve_eq_ok_iff.2 ⟨by decide +kernel, by decide +kernel⟩
  have outside : isSafe "a/../b" ≠ true := by decide +kernel
  have refused : ∀ place, resolve "./media/" "a/../b" ≠ .ok place :=
    fun place accepted => outside (resolve_eq_ok_iff.1 accepted).1
  obtain ⟨_, _, _, below, _⟩ := (media_confined ⟨"./media/"⟩ "a//./.../.. /b.png").2.1 _ accepted
  have root : walk ["srv".toList] (steps "./media/") = ["srv".toList, "media".toList] := by
    decide +kernel
  refine ⟨accepted, fun stop within => ?_, ((media_confined ⟨"./media/"⟩ "a/../b").2.2 refused).1⟩
  rw [← root]
  exact below _ stop within

end MediaDirectory

end Syndication
