import Syndication.Media.Directory

namespace Syndication

/-- A tree of files in memory, which answers as a disk does. -/
inductive FileTree where
  | file (bytes : List UInt8)
  | directory (entries : List (List Char × FileTree))

namespace FileTree

def empty : FileTree := .directory []

/-- The longest name of a file in bytes. -/
def maxName : Nat := 255

/-- The longest path in bytes. -/
def maxPath : Nat := 4095

def sizeOf (name : List Char) : Nat := (String.ofList name).utf8ByteSize

/-- The tree at the end of a walk; `detail` is the text of faults. -/
def walk (detail : String) : List (List Char) → FileTree → Except FileFault FileTree
  | [], tree => .ok tree
  | _ :: _, .file _ => .error (.other detail)
  | segment :: rest, .directory entries =>
    if MediaPath.isHere segment then walk detail rest (.directory entries)
    else if maxName < sizeOf segment then .error (.other detail)
    else
      match entries.lookup segment with
      | some tree => walk detail rest tree
      | none => .error .missing

/-- The tree at a path. -/
def find (detail : String) (tree : FileTree) (path : String) : Except FileFault FileTree :=
  if path.toList.contains '\x00' || maxPath < path.utf8ByteSize then .error (.other detail)
  else walk detail (MediaPath.segments path.toList) tree

/-- The tree with a file at the end of a path; directories on the way are made as they are
needed. -/
def put (bytes : List UInt8) : List (List Char) → FileTree → FileTree
  | [], _ => .file bytes
  | segment :: rest, tree =>
    if MediaPath.isHere segment then put bytes rest tree
    else
      let entries := match tree with
        | .directory entries => entries
        | .file _ => []
      let below := (entries.lookup segment).getD empty
      .directory ((segment, put bytes rest below) :: entries.filter (·.1 != segment))

/-- The tree with a file at a path. -/
def insert (tree : FileTree) (path : String) (bytes : List UInt8) : FileTree :=
  put bytes (MediaPath.segments path.toList) tree

/-- Answers as a disk with this tree does. -/
def perform (detail : String) : (c : FileCall) → FileTree → c.Answer × FileTree
  | .read path, tree =>
    match find detail tree path with
    | .ok (.file bytes) => (.ok bytes, tree)
    | .ok (.directory _) => (.error (.other detail), tree)
    | .error fault => (.error fault, tree)
  | .doesExist path, tree =>
    match find detail tree path with
    | .ok _ => (.ok true, tree)
    | .error .missing => (.ok false, tree)
    | .error (.other detail) => (.error (.other detail), tree)

end FileTree

end Syndication
