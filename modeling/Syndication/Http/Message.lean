import Syndication.Http.Form
import Syndication.Json.Printer
import Syndication.Json.Reader
import Syndication.Text.Ascii

namespace Syndication.Http

inductive Method where
  | get
  | post
  | put
deriving DecidableEq, Repr

inductive Body where
  | empty
  | text (text : String)
  | bytes (bytes : List UInt8)
deriving DecidableEq, Repr

structure Request where
  method : Method
  url : String
  /-- Pairs that are added to the query of the address. -/
  query : List (String × String) := []
  headers : List (String × String) := []
  body : Body := .empty
deriving DecidableEq, Repr

namespace Request

def post (url : String) : Request := { method := .post, url }

def withHeader (request : Request) (name value : String) : Request :=
  { request with headers := request.headers ++ [(name, value)] }

/-- The request on behalf of whoever holds the token. -/
def withToken (request : Request) (token : String) : Request :=
  request.withHeader "authorization" s!"Bearer {token}"

def withForm (request : Request) (fields : List (String × String)) : Request :=
  { request.withHeader "content-type" Form.contentType with body := .text (Form.encode fields) }

def withJson (request : Request) (json : Json) : Request :=
  { request.withHeader "content-type" "application/json" with body := .text json.text }

end Request

/-- The body of a reply as far as it can be read. -/
inductive ReplyBody where
  | text (text : String)
  /-- Bytes that are no text: its characters, and none in the place of each fault. -/
  | garbled (parts : List (Option Char))
  /-- A body that breaks off. -/
  | broken
deriving DecidableEq, Repr

structure Reply where
  status : Nat
  /-- Headers in their order; a value that cannot be read as text is none. -/
  headers : List (String × Option String) := []
  body : ReplyBody
deriving DecidableEq, Repr

namespace Reply

def isSuccess (reply : Reply) : Bool := 200 ≤ reply.status && reply.status < 300

/-- The first header of this name, if its value is a text. -/
def header? (reply : Reply) (name : String) : Option String :=
  (reply.headers.find? fun (n, _) => Text.sameLetters n name).bind (·.2)

/-- The body as text, with a replacement mark for each fault; nothing is left of a body that breaks
off. -/
def text (reply : Reply) : String :=
  match reply.body with
  | .text text => text
  | .garbled parts => .ofList (parts.map (·.getD '\uFFFD'))
  | .broken => ""

/-- What a fault is to a reader of JSON: a character that stands nowhere but in string literals, and
an escape by which the literal denotes no text. -/
def faultMark : List Char := '\uFFFD' :: "\\ud800 ".toList

/-- The body as one JSON value. A fault may be in a literal that is skipped, and nowhere else. -/
def json? (reply : Reply) : Option Json :=
  match reply.body with
  | .text text => Json.ofText? text
  | .garbled parts => Json.ofChars? (parts.flatMap (·.elim faultMark ([·])))
  | .broken => none

end Reply

/-- Why a request had no reply. -/
inductive SendFault where
  | unreachable (detail : String)
  | timedOut (detail : String)
deriving DecidableEq, Repr

/-- What stands in messages for the reason why a text could not be read. -/
def unreadable : String := "<detail>"

end Syndication.Http
