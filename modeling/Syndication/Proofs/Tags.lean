import Syndication.Execution
import Syndication.Proofs.AttemptKeys

namespace Syndication

/-- The text begins with a character that opens no tag. -/
def Text.BeginsPlain (text : String) : Prop :=
  ∃ first rest, text.toList = first :: rest ∧ first ≠ '['

theorem Text.BeginsPlain.append {front : String} (plain : BeginsPlain front) (rest : String) :
    BeginsPlain (front ++ rest) := by
  obtain ⟨first, more, parts, apart⟩ := plain
  exact ⟨first, more ++ rest.toList, by simp [parts], apart⟩

/-- What is left of a text when the blanks at its front are taken off. -/
def Text.TrimsTo (text rest : String) : Prop :=
  ∃ blanks, text = blanks ++ rest ∧ isBlankText blanks = true ∧
    ∀ c ∈ rest.toList.head?, isBlank c = false

theorem Text.trimsTo_iff {text rest : String} :
    TrimsTo text rest ↔ rest = .ofList (dropBlank text.toList) := by
  constructor
  · rintro ⟨blanks, rfl, all, visible⟩
    have front : ∀ c ∈ blanks.toList, isBlank c = true := List.all_eq_true.1 all
    have back : rest.toList.dropWhile isBlank = rest.toList := by
      cases chars : rest.toList with
      | nil => rfl
      | cons first _ => simp [visible first (by simp [chars])]
    rw [dropBlank, String.toList_append, List.dropWhile_append_of_pos front, back,
      String.ofList_toList]
  · rintro rfl
    refine ⟨.ofList (text.toList.takeWhile isBlank), ?_, ?_, fun c first => ?_⟩
    · rw [← String.ofList_append, dropBlank, List.takeWhile_append_dropWhile, String.ofList_toList]
    · simp [isBlankText]
    · have kept := List.head?_dropWhile_not isBlank text.toList
      rw [String.toList_ofList, dropBlank, Option.mem_def] at first
      rwa [first] at kept

namespace FailureKind

theorem tag_lacks (kind : FailureKind) : Text.Lacks [']'] kind.tag.toList := by
  cases kind <;> rfl

theorem splitTagged_of_bracket {message : String} {tag tail : List Char}
    (parts : message.toList = '[' :: (tag ++ [']'] ++ tail)) (lacks : Text.Lacks [']'] tag) :
    splitTagged message = (ofTag? (.ofList tag)).map fun kind =>
      (kind, .ofList (Text.dropBlank tail)) := by
  have cut : Text.splitFirst? [']'] (tag ++ [']'] ++ tail) = some (tag, tail) :=
    Text.splitFirst?_append_mark List.not_mem_nil lacks
  simp only [splitTagged, parts, cut]
  cases known : ofTag? (.ofList tag) <;> simp [known]

theorem splitTagged_of_plain {message : String} (plain : Text.BeginsPlain message) :
    splitTagged message = none := by
  obtain ⟨first, rest, parts, apart⟩ := plain
  unfold splitTagged
  split
  · rename_i same
    rw [parts] at same
    exact absurd (List.cons.inj same).1 apart
  · rfl

/-- The tag that is read from a message is the one it had, or else the one that was put in front
of it. -/
theorem splitTagged_tagMessage (kind : FailureKind) (message : String) :
    splitTagged (kind.tagMessage message) =
      (splitTagged message).or (some (kind, .ofList (Text.dropBlank message.toList))) := by
  unfold tagMessage
  cases own : splitTagged message with
  | some split => simp [own]
  | none =>
    have parts : (s!"[{kind.tag}] {message}" : String).toList =
        '[' :: (kind.tag.toList ++ [']'] ++ ' ' :: message.toList) := by
      simp [toString]
    have blank : Text.dropBlank (' ' :: message.toList) = Text.dropBlank message.toList := rfl
    simp [splitTagged_of_bracket parts kind.tag_lacks, blank]

theorem tagMessage_tagged (kind : FailureKind) (message : String) :
    ∃ tag text, splitTagged (kind.tagMessage message) = some (tag, text) := by
  rw [splitTagged_tagMessage]
  cases splitTagged message with
  | none => exact ⟨_, _, rfl⟩
  | some parts => exact ⟨_, _, rfl⟩

/-- Exactly the messages that begin with the tag of a kind in brackets are read as messages of the
kind. -/
theorem splitTagged_eq_some_iff {kind : FailureKind} {message text : String} :
    splitTagged message = some (kind, text) ↔
      ∃ tail, message = "[" ++ kind.tag ++ "]" ++ tail ∧ Text.TrimsTo tail text := by
  simp only [Text.trimsTo_iff]
  constructor
  · intro split
    unfold splitTagged at split
    split at split
    · rename_i rest opened
      obtain ⟨⟨tag, tail⟩, cut, split⟩ := Option.bind_eq_some_iff.1 split
      obtain ⟨known, isKnown, same⟩ := Option.bind_eq_some_iff.1 split
      cases same
      refine ⟨.ofList tail, String.toList_injective ?_, by simp⟩
      simp [opened, Text.splitFirst?_append cut, ofTag?_eq_some_iff.1 isKnown]
    · cases split
  · rintro ⟨tail, rfl, rfl⟩
    have parts : ("[" ++ kind.tag ++ "]" ++ tail).toList =
        '[' :: (kind.tag.toList ++ [']'] ++ tail.toList) := by
      simp
    simp [splitTagged_of_bracket parts kind.tag_lacks]

theorem tagMessage_tagMessage (kind other : FailureKind) (message : String) :
    other.tagMessage (kind.tagMessage message) = kind.tagMessage message := by
  obtain ⟨tag, text, tagged⟩ := kind.tagMessage_tagged message
  rw [tagMessage, tagged, Option.isSome_some, if_pos rfl]

end FailureKind

/-- The message of an error begins with words of its own. -/
theorem PublishError.message_beginsPlain (error : PublishError) :
    Text.BeginsPlain error.message := by
  cases error
  all_goals
    unfold message
    repeat with_reducible apply Text.BeginsPlain.append
    exact ⟨_, _, rfl, by decide⟩

namespace FailureKind

/-- Every message can be tagged and read back. Tagging makes a tagged message of any message; one
that had no tag is read as the kind and the message itself, less the blanks at its front; and a
second tagging changes nothing. A message is read as one of a kind exactly if it begins with the tag
of the kind in brackets, and its text is what follows, less the blanks. The tagged message of an
error has the kind of the error. -/
theorem tagging_readBack (kind other : FailureKind) (message : String) (error : PublishError) :
    (splitTagged (kind.tagMessage message)).isSome = true ∧
    (splitTagged message = none → ∃ text, Text.TrimsTo message text ∧
      splitTagged (kind.tagMessage message) = some (kind, text)) ∧
    other.tagMessage (kind.tagMessage message) = kind.tagMessage message ∧
    (∀ text, splitTagged message = some (kind, text) ↔
      ∃ tail, message = "[" ++ kind.tag ++ "]" ++ tail ∧ Text.TrimsTo tail text) ∧
    ∃ text, Text.TrimsTo error.message text ∧
      splitTagged error.taggedMessage = some (error.kind, text) := by
  have readBack : ∀ (kind : FailureKind) {message : String}, splitTagged message = none →
      ∃ text, Text.TrimsTo message text ∧
        splitTagged (kind.tagMessage message) = some (kind, text) := by
    intro kind message untagged
    exact ⟨_, Text.trimsTo_iff.2 rfl, by rw [splitTagged_tagMessage, untagged, Option.none_or]⟩
  refine ⟨?_, readBack kind, kind.tagMessage_tagMessage other message,
    fun text => splitTagged_eq_some_iff,
    readBack _ (splitTagged_of_plain error.message_beginsPlain)⟩
  obtain ⟨tag, text, tagged⟩ := kind.tagMessage_tagged message
  rw [tagged, Option.isSome_some]

/-- A blank in front of a tag hides it, so that the message gets a second tag; what is read back is
a tagged message itself. -/
theorem tagging_readBack_hidden :
    splitTagged "\u3000[AUTH] revoked" = none ∧
    splitTagged (rateLimited.tagMessage "\u3000[AUTH] revoked") =
      some (.rateLimited, "[AUTH] revoked") := by
  have untagged : splitTagged "\u3000[AUTH] revoked" = none := by decide +kernel
  obtain ⟨_, readBack, _⟩ :=
    tagging_readBack .rateLimited .auth "\u3000[AUTH] revoked" (.unknownPlatform "MYSPACE")
  obtain ⟨text, trims, read⟩ := readBack untagged
  have bare : text = "[AUTH] revoked" := by
    rw [Text.trimsTo_iff.1 trims]
    decide +kernel
  exact ⟨untagged, bare ▸ read⟩

end FailureKind

end Syndication
