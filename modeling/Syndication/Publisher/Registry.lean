import Syndication.Fault.Publish
import Syndication.Platform

namespace Syndication

/-- Two publishers that claim the same platform. -/
structure DuplicatePlatform where
  platform : Platform
deriving DecidableEq, Repr

def DuplicatePlatform.message (fault : DuplicatePlatform) : String :=
  s!"More than one publisher registered for platform {fault.platform.name}"

/-- At most one publisher for each platform, found by the platform's key in any letter case. -/
structure Registry (S : Type) where
  entries : List (Platform × S)
  distinct : (entries.map Prod.fst).Nodup

namespace Registry

variable {S : Type}

/-- The publisher whose platform has this name. -/
def find? (registry : Registry S) (name : String) : Option S :=
  (registry.entries.find? fun entry => entry.1.name == name).map (·.2)

/-- Whether a publisher for the platform is there. -/
def has (registry : Registry S) (platform : Platform) : Bool :=
  (registry.entries.map Prod.fst).contains platform

def empty : Registry S := ⟨[], by simp⟩

/-- The registry with one more publisher at its end. -/
def insert (registry : Registry S) (platform : Platform) (publisher : S) :
    Except DuplicatePlatform (Registry S) :=
  if h : platform ∈ registry.entries.map Prod.fst then .error ⟨platform⟩
  else
    .ok ⟨registry.entries ++ [(platform, publisher)], by
      have apart : ∀ p ∈ registry.entries.map Prod.fst, p ≠ platform :=
        fun p hp same => h (same ▸ hp)
      rw [List.map_append]
      exact List.nodup_append.2 ⟨registry.distinct, by simp, by simpa using apart⟩⟩

/-- The registry of a list of publishers. The first one whose platform is taken is reported. -/
def build (platformOf : S → Platform) (publishers : List S) :
    Except DuplicatePlatform (Registry S) :=
  publishers.foldlM
    (fun registry publisher => registry.insert (platformOf publisher) publisher) empty

/-- The publisher for a key. -/
def resolve (registry : Registry S) (key : String) : Except PublishError S :=
  match registry.find? (Platform.normalizeKey key) with
  | some publisher => .ok publisher
  | none => .error (.unknownPlatform key)

/-- The platforms that have a publisher, in the order in which platforms are listed. -/
def platforms (registry : Registry S) : List Platform := Platform.all.filter registry.has

def size (registry : Registry S) : Nat := registry.entries.length

def isEmpty (registry : Registry S) : Bool := registry.entries.isEmpty

end Registry

end Syndication
