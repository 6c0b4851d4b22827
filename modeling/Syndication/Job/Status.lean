import Syndication.Fault.Field
import Syndication.Json.Record

namespace Syndication

/-- The life of a job: pending at first, then a success or a failure for good. -/
inductive JobStatus where
  | pending
  | success
  | failed
deriving DecidableEq, Repr

namespace JobStatus

def all : List JobStatus := [.pending, .success, .failed]

def name : JobStatus → String
  | .pending => "PENDING"
  | .success => "SUCCESS"
  | .failed => "FAILED"

/-- The name used in messages about transitions. -/
def label : JobStatus → String
  | .pending => "Pending"
  | .success => "Success"
  | .failed => "Failed"

/-- The states that may follow. -/
def next : JobStatus → List JobStatus
  | .pending => [.success, .failed]
  | .success | .failed => []

def canBecome (status target : JobStatus) : Bool := status.next.contains target

def isTerminal (status : JobStatus) : Bool := status.next.isEmpty

def become (status target : JobStatus) : Except FieldFault JobStatus :=
  if status.canBecome target then .ok target
  else
    .error (.malformed "state_transition"
      s!"Cannot transition from {status.label} to {target.label}")

/-- The status that a stored name stands for. -/
def ofName (name : String) : Except FieldFault JobStatus :=
  match all.find? (·.name == name) with
  | some status => .ok status
  | none => .error (.malformed "status" s!"unknown publish job status '{name}'")

def toJson (status : JobStatus) : Json := .str status.name

def ofJson? (json : Json) : Option JobStatus :=
  json.caseName?.bind fun name => (ofName name).toOption

@[simp] theorem isTerminal_iff {status : JobStatus} :
    status.isTerminal = true ↔ status ≠ .pending := by
  cases status <;> decide

theorem canBecome_iff {status target : JobStatus} :
    status.canBecome target = true ↔ status = .pending ∧ target ≠ .pending := by
  cases status <;> cases target <;> decide

end JobStatus

end Syndication
