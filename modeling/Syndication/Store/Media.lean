import Syndication.Fault.Media

namespace Syndication

/-- A run of bytes with the type that its owner gave it. -/
structure Media where
  bytes : List UInt8
  contentType : String
deriving DecidableEq, Repr

structure MediaStore where
  entries : List (String × Media) := []

namespace MediaStore

def find? (store : MediaStore) (path : String) : Except MediaError Media :=
  match store.entries.lookup path with
  | some media => .ok media
  | none => .error (.notFound path)

def put (store : MediaStore) (path : String) (media : Media) : MediaStore :=
  ⟨(path, media) :: store.entries.filter (·.1 != path)⟩

end MediaStore

end Syndication
