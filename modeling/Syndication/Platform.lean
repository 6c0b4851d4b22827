import Syndication.Fault.Field
import Syndication.Json.Record
import Syndication.Text.Ascii
import Syndication.Text.Blank

namespace Syndication

/-- The platforms that content is published on. -/
inductive Platform where
  | youtube
  | linkedin
  | instagram
  | facebook
deriving DecidableEq, Repr

namespace Platform

/-- All platforms, in the order in which they are listed. -/
def all : List Platform := [.youtube, .linkedin, .instagram, .facebook]

theorem mem_all (p : Platform) : p ∈ all := by cases p <;> decide

def name : Platform → String
  | .youtube => "YOUTUBE"
  | .linkedin => "LINKEDIN"
  | .instagram => "INSTAGRAM"
  | .facebook => "FACEBOOK"

/-- The form of a key that lookups go by. -/
def normalizeKey (key : String) : String := Text.upper (Text.trim key)

def ofName? (name : String) : Option Platform := all.find? (·.name == name)

/-- The platform that a key stands for. -/
def ofKey (key : String) : Except FieldFault Platform :=
  match ofName? (normalizeKey key) with
  | some platform => .ok platform
  | none => .error (.malformed "platform" s!"unsupported platform '{key}'")

def toJson (p : Platform) : Json := .str p.name

def ofJson? (json : Json) : Option Platform := json.caseName?.bind ofName?

theorem name_injective {p q : Platform} (h : p.name = q.name) : p = q := by
  cases p <;> cases q <;> first | rfl | exact absurd h (by decide)

@[simp] theorem ofName?_name (p : Platform) : ofName? p.name = some p := by
  cases p <;> decide

theorem ofName?_eq_some_iff {name : String} {p : Platform} :
    ofName? name = some p ↔ p.name = name := by
  constructor
  · intro h
    simpa using List.find?_some h
  · rintro rfl
    exact ofName?_name p

theorem ofKey_eq_ok_iff {key : String} {p : Platform} :
    ofKey key = .ok p ↔ p.name = normalizeKey key := by
  rw [← ofName?_eq_some_iff]
  unfold ofKey
  split <;> simp_all

end Platform

end Syndication
