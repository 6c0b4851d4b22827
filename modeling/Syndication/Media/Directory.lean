import Syndication.Media.Path
import Syndication.Program

namespace Syndication

/-- Why a file could not be read. -/
inductive FileFault where
  | missing
  | other (detail : String)
deriving DecidableEq, Repr

inductive FileCall where
  | read (path : String)
  | doesExist (path : String)

@[reducible] def FileCall.Answer : FileCall → Type
  | .read _ => Except FileFault (List UInt8)
  | .doesExist _ => Except FileFault Bool

abbrev Files : Interface := ⟨FileCall, FileCall.Answer⟩

/-- A directory that holds media. -/
structure MediaDirectory where
  root : String

namespace MediaDirectory

/-- The fault of a file as the fault of the media with this path. -/
def mediaError (path : String) : FileFault → MediaError
  | .missing => .notFound path
  | .other detail => .io detail

/-- Reads the media at a path. -/
def download (directory : MediaDirectory) (path : String) :
    Program Files (Except MediaError (List UInt8)) :=
  match MediaPath.resolve directory.root path with
  | .error error => .done (.error error)
  | .ok place => (Program.ask (I := Files) (.read place)).bind fun answer =>
    .done (answer.mapError (mediaError path))

/-- The content type of the media at a path, which have to be there. -/
def contentType (directory : MediaDirectory) (path : String) :
    Program Files (Except MediaError String) :=
  match MediaPath.resolve directory.root path with
  | .error error => .done (.error error)
  | .ok place => (Program.ask (I := Files) (.doesExist place)).bind fun
    | .ok true => .done (.ok (MediaPath.contentType place))
    | .ok false => .done (.error (.notFound path))
    | .error fault => .done (.error (mediaError path fault))

end MediaDirectory

end Syndication
