import Syndication.Http.Message
import Syndication.Json.Record

namespace Syndication

/-- What is found under a key is the first of what stands under it. -/
theorem lookup_eq_head?_filter {α β : Type} [BEq α] [LawfulBEq α] (entries : List (α × β))
    (key : α) : entries.lookup key = (entries.filter (·.1 == key)).head?.map (·.2) := by
  induction entries with
  | nil => rfl
  | cons entry entries ih =>
    rw [List.lookup_cons, List.filter_cons, Bool.beq_comm]
    cases entry.1 == key <;> simp [ih]

namespace Json

/-- Of the fields with this name there is just the one with this value, or none. -/
def Only (fields : List (String × Json)) (name : String) (value : Option Json) : Prop :=
  fields.filter (·.1 == name) = (value.map (name, ·)).toList

theorem only_iff {fields : List (String × Json)} {name : String} {value : Option Json} :
    Only fields name value ↔
      (fields.filter (·.1 == name)).length ≤ 1 ∧ fields.lookup name = value := by
  have isNamed : ∀ field ∈ fields.filter (·.1 == name), field.1 = name := by simp
  rw [Only, lookup_eq_head?_filter]
  generalize fields.filter (·.1 == name) = found at isNamed ⊢
  match found with
  | [] => cases value <;> simp
  | [field] =>
    obtain rfl := isNamed field (List.mem_singleton_self field)
    cases value <;> simp [Prod.ext_iff]
  | _ :: _ :: _ => cases value <;> simp

theorem str?_eq_some_iff {json : Json} {s : String} : json.str? = some s ↔ json = .str s := by
  cases json <;> simp [str?]

theorem long?_eq_some_iff {json : Json} {n : UInt64} :
    json.long? = some n ↔ json = .int n.toNat := by
  have small : n.toNat < UInt64.size := n.toNat_lt_size
  cases json with
  | int m =>
    simp only [long?, natBelow?, Option.map_eq_some_iff, Option.ite_none_right_eq_some,
      Option.some.injEq, int.injEq]
    constructor
    · rintro ⟨_, ⟨⟨positive, below⟩, rfl⟩, rfl⟩
      rw [Nat.toUInt64_eq, UInt64.toNat_ofNat_of_lt' (by omega)]
      omega
    · rintro rfl
      exact ⟨n.toNat, ⟨⟨by omega, by omega⟩, by omega⟩, by simp⟩
  | _ => simp [long?, natBelow?]

end Json

/-- A field that may be missing or null gives a value exactly if it has one that is read. -/
theorem Record.defaultedOptional_eq_some_iff {α : Type} {r : Record} {name : String}
    {decode : Json → Option α} {given : Option α} (noNull : decode .null = none) :
    r.defaultedOptional name decode = some given ↔
      ((r.get? name = none ∨ r.get? name = some .null) ∧ given = none) ∨
        ∃ json a, r.get? name = some json ∧ decode json = some a ∧ given = some a := by
  rw [defaultedOptional, defaulted]
  cases r.get? name with
  | none => simp [eq_comm]
  | some json => cases json <;> simp [nullable, noNull, Option.map_eq_some_iff, @eq_comm _ given]

namespace Http.Reply

theorem isSuccess_iff {reply : Reply} :
    reply.isSuccess = true ↔ 200 ≤ reply.status ∧ reply.status ≤ 299 := by
  rw [isSuccess, Bool.and_eq_true, decide_eq_true_eq, decide_eq_true_eq, Nat.lt_succ_iff]

/-- The body of the reply is this value. In bytes that are no text a fault stands for a character
that is in string literals only and makes them denote nothing. -/
def Holds (reply : Reply) (json : Json) : Prop :=
  (∃ text, reply.body = .text text ∧ Json.ofText? text = some json) ∨
    ∃ parts, reply.body = .garbled parts ∧ Json.ofChars? (parts.flatMap fun
      | some c => [c]
      | none => ['\uFFFD', '\\', 'u', 'd', '8', '0', '0', ' ']) = some json

theorem json?_eq_some_iff {reply : Reply} {json : Json} :
    reply.json? = some json ↔ reply.Holds json := by
  have marked (part : Option Char) : part.elim faultMark ([·]) = (match part with
      | some c => [c]
      | none => ['\uFFFD', '\\', 'u', 'd', '8', '0', '0', ' ']) := by
    cases part <;> rfl
  unfold json? Holds
  cases reply.body <;> simp [marked]

end Http.Reply

end Syndication
