import Syndication.Records

namespace Syndication.Ledger

/-- The job that a key stands for, if the request is for the same thing. -/
def reuse (existing : Job) (request : Request) (key : String) : Except PublishError Job :=
  if existing.matchesRequest request then .ok existing
  else .error (.idempotencyConflict key existing.id)

/-- The row of a job, which has to be there. -/
def stored (id : JobId) : Action Records Job := do
  match ← .persisted (Records.findJob id) with
  | some job => return job
  | none => throw (.persistence ⟨.jobNotFound, s!"Publish job {id.text} not found", []⟩)

/-- The job of a delivery that took the key first. -/
def yieldTo (request : Request) (key : String) (fault : ServiceFault) : Action Records Job := do
  match ← .persisted (Records.findJobByKey key) with
  | some winner => .ofExcept (reuse winner request key)
  | none => throw (.persistence fault)

/-- Inserts a new job. When the key was taken in the meantime, the row that has it counts. -/
def insertNew (budget : UInt32) (request : Request) : Action Records Job := do
  let id ← .always Records.freshId
  let now ← .always Records.now
  let job := Job.ofRequest request budget ⟨id⟩ now
  match ← .always (Records.insertJob job) with
  | .ok () => return job
  | .error fault =>
    match request.idempotencyKey with
    | some key =>
      if fault.isDuplicate then yieldTo request key fault else throw (.persistence fault)
    | none => throw (.persistence fault)

/-- The job of a request: the one its key stands for already, or a new pending one. `budget` is
the retry budget of requests that set none. -/
def openJob (budget : UInt32) (request : Request) : Action Records Job := do
  .ofExcept request.validate
  match request.idempotencyKey with
  | none => insertNew budget request
  | some key =>
    match ← .persisted (Records.findJobByKey key) with
    | some existing => .ofExcept (reuse existing request key)
    | none => insertNew budget request

/-- Gives a pending job its start stamp. A job that finished in the meantime is answered as it is
stored. -/
def start (job : Job) : Action Records Job := do
  let now ← .always Records.now
  let (started, isNew) := job.markStarted now
  if isNew then
    if ← .persisted (Records.updateJob started) then return started else stored job.id
  else return job

/-- Stores a post, or finds the one that an earlier delivery stored for the same job. -/
def recordPost (post : Post) : Action Records Post := do
  match ← .always (Records.insertPost post) with
  | .ok () => return post
  | .error fault =>
    if fault.isDuplicate then
      let earlier ← .persisted (Records.findPost post.jobId)
      return earlier.getD post
    else throw (.persistence fault)

/-- Stores the post of a success, and then the success itself. The post is answered only when the
job was pending until now. -/
def finish (candidate : Job) (post : Post) : Action Records (Job × Option Post) := do
  let post ← recordPost post
  if ← .persisted (Records.updateJob candidate) then return (candidate, some post)
  else return (← stored candidate.id, none)

/-- Moves a pending job to success, with the post of the result. A job that is finished already,
in this copy or in its row, is answered without a post, and so is a result without one. -/
def succeed (job : Job) (result : PublishResult) : Action Records (Job × Option Post) := do
  if result.success then
    let now ← .always Records.now
    let (candidate, isNew) := job.markSuccess now
    if isNew then
      let row ← stored job.id
      if row.isTerminal then return (row, none)
      else
        let id ← .always Records.freshId
        match Post.ofSuccess? candidate result ⟨id⟩ now with
        | some post => finish candidate post
        | none => return (job, none)
    else return (job, none)
  else throw (.invalidRequest "result" "mark_success requires a successful publish result")

/-- Moves a pending job to failure, and answers whether this call did it. -/
def fail (job : Job) (message : String) : Action Records (Job × Bool) := do
  let now ← .always Records.now
  let (failed, isNew) := job.markFailure message now
  if isNew then
    if ← .persisted (Records.updateJob failed) then return (failed, true)
    else return (← stored job.id, false)
  else return (job, false)

/-- The success record of a job. -/
def postOf (job : Job) : Action Records (Option Post) := .persisted (Records.findPost job.id)

end Syndication.Ledger
