import Syndication.Fault.Media
import Syndication.Text.Ascii
import Syndication.Text.Blank

namespace Syndication.MediaPath

/-- The segments of a path, empty ones included. -/
def segments : List Char → List (List Char)
  | [] => [[]]
  | c :: rest =>
    if c = '/' then [] :: segments rest
    else
      match segments rest with
      | first :: others => (c :: first) :: others
      | [] => [[c]]

/-- Whether a segment stands for the directory it is in. -/
def isHere (segment : List Char) : Bool := segment.isEmpty || segment == ['.']

/-- Whether a segment leads upward. -/
def isUp (segment : List Char) : Bool := segment == ['.', '.']

/-- Whether a path stays below wherever it starts. -/
def isSafe (path : String) : Bool :=
  !Text.isBlankText path && path.toList.head? != some '/' && !(segments path.toList).any isUp

/-- The path that leads from the root's start to where a path below the root leads. -/
def join (root path : String) : String :=
  if root.isEmpty || root.toList.getLast? == some '/' then root ++ path else s!"{root}/{path}"

/-- The place of media below a root. -/
def resolve (root path : String) : Except MediaError String :=
  if isSafe path then .ok (join root path) else .error (.invalidPath path)

/-- The last segment that names something. -/
def fileName (path : String) : List Char :=
  (((segments path.toList).filter (!isHere ·)).getLast?).getD []

/-- What follows the last dot of a name, unless nothing stands before that dot. -/
def extensionOf (name : List Char) : Option (List Char) :=
  let reversed := name.reverse
  match reversed.dropWhile (· != '.') with
  | _ :: before =>
    if before.isEmpty then none else some (reversed.takeWhile (· != '.')).reverse
  | [] => none

/-- The type of media whose path tells none. -/
def defaultType : String := "application/octet-stream"

/-- The content type that an extension stands for. -/
def typeOfExtension (ext : String) : String :=
  if ext = "mp4" ∨ ext = "m4v" then "video/mp4"
  else if ext = "mov" then "video/quicktime"
  else if ext = "webm" then "video/webm"
  else if ext = "jpg" ∨ ext = "jpeg" then "image/jpeg"
  else if ext = "png" then "image/png"
  else if ext = "gif" then "image/gif"
  else defaultType

/-- The content type of media at a path, by the extension in any letter case. -/
def contentType (path : String) : String :=
  match extensionOf (fileName path) with
  | some ext => typeOfExtension (Text.lower (.ofList ext))
  | none => defaultType

end Syndication.MediaPath
