import Syndication.Fault.Service
import Syndication.Job.Basic

namespace Syndication

/-- Rows of jobs in the order of their insertion. -/
structure JobStore where
  rows : List Job := []
  /-- How many updates were written. -/
  updates : Nat := 0

namespace JobStore

def find? (store : JobStore) (id : JobId) : Option Job := store.rows.find? (·.id == id)

def findByKey? (store : JobStore) (key : String) : Option Job :=
  store.rows.find? (·.idempotencyKey == some key)

def taken (id : JobId) : ServiceFault :=
  ⟨.duplicateKey, s!"Publish job {id.text} already exists", []⟩

def keyInUse (key : String) : ServiceFault :=
  ServiceFault.withDetail ⟨.duplicateKey, s!"Idempotency key '{key}' already in use", []⟩
    "idempotency_key" key

def insert (store : JobStore) (job : Job) : Except ServiceFault JobStore :=
  if (store.find? job.id).isSome then .error (taken job.id)
  else
    match job.idempotencyKey.filter fun key => (store.findByKey? key).isSome with
    | some key => .error (keyInUse key)
    | none => .ok { store with rows := store.rows ++ [job] }

/-- Puts a job in the place of the row that has its identifier. -/
def replace (job : Job) (rows : List Job) : List Job :=
  rows.map fun row => if row.id = job.id then job else row

def missing (id : JobId) : ServiceFault := ⟨.jobNotFound, s!"Publish job {id.text} not found", []⟩

/-- Replaces the row of a job, unless it is finished; answers whether it was replaced. -/
def update (store : JobStore) (job : Job) : Except ServiceFault (Bool × JobStore) :=
  match store.find? job.id with
  | none => .error (missing job.id)
  | some row =>
    if row.isTerminal then .ok (false, store)
    else .ok (true, ⟨replace job store.rows, store.updates + 1⟩)

end JobStore

end Syndication
