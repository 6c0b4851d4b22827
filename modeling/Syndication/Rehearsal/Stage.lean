import Syndication.Execution
import Syndication.Publisher.Basic
import Syndication.Rehearsal.Plan
import Syndication.Rehearsal.Script
import Syndication.Store.Accounts
import Syndication.Store.Bus
import Syndication.Store.Contents
import Syndication.Store.Jobs
import Syndication.Store.Media
import Syndication.Store.Posts
import Syndication.Token.Endpoint

namespace Syndication.Rehearsal

/-- Services that are asked over a line that is down. -/
structure WebServices where
  base : Platform → String
  endpoints : TokenEndpoints
  /-- What every request is told. -/
  detail : String

/-- All stores are in memory, the clock stands still, identifiers are counted, and faults come as
planned. -/
structure Stage where
  engine : Engine
  clock : Timestamp
  /-- The number of the identifier that is given out first. -/
  firstId : Nat
  /-- How many identifiers were given out. -/
  issued : Nat := 0
  jobs : JobStore := {}
  posts : PostStore := {}
  accounts : AccountStore := {}
  contents : ContentStore := {}
  media : MediaStore := {}
  bus : EventBus := {}
  locks : LockTable := {}
  plan : Plan := []
  tokenTurns : List TokenTurn := []
  tokenLog : List TokenCall := []
  publishTurns : List (Platform × PublishTurn) := []
  publishLog : List PublishRecord := []
  web : Option WebServices := none
  /-- The jobs, posts and events that were handed over, in the order in which it was tried. -/
  jobTrail : List JobId := []
  postTrail : List PostId := []
  eventTrail : List EventId := []

namespace Stage

/-- The next effect at a point. -/
def takeEffect (stage : Stage) (point : Point) : Effect × Stage :=
  let (effect, plan) := stage.plan.take point
  (effect, { stage with plan })

/-- Does the work of a call at a point, unless a fault is planned for it. -/
def atPoint {α : Type} (point : Point) (work : Effect → Stage → Except ServiceFault α × Stage)
    (stage : Stage) : Except ServiceFault α × Stage :=
  let (effect, stage) := stage.takeEffect point
  match effect with
  | .fault => (.error (.database (injected point)), stage)
  | .duplicate => (.error ⟨.duplicateKey, "injected duplicate", []⟩, stage)
  | effect => work effect stage

/-- A look-up at a point. -/
def look {α : Type} (point : Point) (find : Stage → Option α) (stage : Stage) :
    Except ServiceFault (Option α) × Stage :=
  stage.atPoint point fun effect stage =>
    (.ok (if effect = .nothing then none else find stage), stage)

/-- A job as if nothing had come of it yet. -/
def asPending (job : Job) : Job :=
  { job with status := .pending, startedAt := none, finishedAt := none, lastError := none }

/-- A look-up of a job at a point. -/
def lookJob (point : Point) (find : JobStore → Option Job) (stage : Stage) :
    Except ServiceFault (Option Job) × Stage :=
  stage.atPoint point fun effect stage =>
    let found := if effect = .nothing then none else find stage.jobs
    (.ok (if effect = .pending then found.map asPending else found), stage)

def freshId (stage : Stage) : Uuid × Stage :=
  (.ofNat (stage.firstId + stage.issued), { stage with issued := stage.issued + 1 })

def insertJob (job : Job) (stage : Stage) : Except ServiceFault Unit × Stage :=
  { stage with jobTrail := stage.jobTrail ++ [job.id] }.atPoint .insertJob fun _ stage =>
    match stage.jobs.insert job with
    | .ok jobs => (.ok (), { stage with jobs })
    | .error fault => (.error fault, stage)

def updateJob (job : Job) (stage : Stage) : Except ServiceFault Bool × Stage :=
  stage.atPoint .updateJob fun effect stage =>
    if effect = .stale then (.ok false, stage)
    else
      match stage.jobs.update job with
      | .ok (written, jobs) => (.ok written, { stage with jobs })
      | .error fault => (.error fault, stage)

def insertPost (post : Post) (stage : Stage) : Except ServiceFault Unit × Stage :=
  { stage with postTrail := stage.postTrail ++ [post.id] }.atPoint .insertPost fun _ stage =>
    match stage.posts.insert post with
    | .ok posts => (.ok (), { stage with posts })
    | .error fault => (.error fault, stage)

def saveAccount (account : Account) (stage : Stage) : Except ServiceFault Unit × Stage :=
  stage.atPoint .saveAccount fun _ stage =>
    match stage.accounts.save account with
    | .ok accounts => (.ok (), { stage with accounts })
    | .error fault => (.error fault, stage)

def send (envelope : Envelope) (stage : Stage) : Except ServiceFault Unit × Stage :=
  match stage.bus.send envelope with
  | .ok bus => (.ok (), { stage with bus, eventTrail := stage.eventTrail ++ [envelope.eventId] })
  | .error fault => (.error fault, stage)

/-- Sends envelopes in order, up to the first that is refused. -/
def sendAll (envelopes : List Envelope) (stage : Stage) : Except ServiceFault Unit × Stage :=
  let (outcome, bus) := stage.bus.sendAll envelopes
  let taken := (bus.sent.drop stage.bus.sent.length).map (·.eventId)
  (outcome, { stage with bus, eventTrail := stage.eventTrail ++ taken })

/-- Answers a call on the records. -/
def keep : (c : RecordCall) → Stage → c.Answer × Stage
  | .now, stage => (stage.clock, stage)
  | .freshId, stage => stage.freshId
  | .insertJob job, stage => stage.insertJob job
  | .updateJob job, stage => stage.updateJob job
  | .findJob id, stage => stage.lookJob .findJob (·.find? id)
  | .findJobByKey key, stage => stage.lookJob .findJobByKey (·.findByKey? key)
  | .insertPost post, stage => stage.insertPost post
  | .findPost job, stage => stage.look .findPost (·.posts.find? job)
  | .send envelope, stage => stage.send envelope

/-- Media at a path, unless a fault is planned at the point. -/
def lookMedia {α : Type} (point : Point) (path : String) (part : Media → α) (stage : Stage) :
    Except MediaError α × Stage :=
  let (effect, stage) := stage.takeEffect point
  if effect = .fault then (.error (.io (injected point)), stage)
  else ((stage.media.find? path).map part, stage)

/-- Answers a call of a publisher. -/
def serve (detail : String) : (c : WebCall) → Stage → c.Answer × Stage
  | .findContent id, stage => stage.look .findContent (·.contents.find? id)
  | .mediaType path, stage => stage.lookMedia .mediaType path (·.contentType)
  | .mediaBytes path, stage => stage.lookMedia .mediaBytes path (·.bytes)
  | .send _, stage => (.error (.unreachable detail), stage)

/-- Lets another delivery end the job that was inserted last. -/
def interfere (rival : Rival) (stage : Stage) : Stage :=
  match stage.jobs.rows.getLast? with
  | none => stage
  | some row =>
    match rival with
    | .succeeds result => ((Ledger.succeed row result).run.run keep stage).2
    | .fails message => ((Ledger.fail row message).run.run keep stage).2

/-- A call of a scripted publisher. -/
def playPublish (platform : Platform) (context : PublishContext) (stage : Stage) :
    Except PlatformError PublishResult × Stage :=
  let publishLog := stage.publishLog ++ [⟨platform, context⟩]
  let number := (publishLog.filter (·.platform = platform)).length
  let (turn, publishTurns) := takeTurn platform stage.publishTurns
  let stage := { stage with publishLog, publishTurns }
  let stage := match turn.rival with
    | some rival => stage.interfere rival
    | none => stage
  (turn.outcome.getD (.ok (plainSuccess platform number)), stage)

/-- A call of a publisher. Publishers do not calculate with times, so that their work always has
an outcome. -/
def publish (platform : Platform) (context : PublishContext) (stage : Stage) :
    Except PlatformError PublishResult × Stage :=
  match stage.web with
  | none => stage.playPublish platform context
  | some web =>
    let (outcome, stage) :=
      (Publisher.publish web.base platform context).run.run (serve web.detail) stage
    (outcome.getD (.error (.internal "no outcome")), stage)

/-- A call of a scripted token endpoint: what is granted, and how long that takes. -/
def playToken (platform : Platform) (token : Secret) (stage : Stage) :
    (Except TokenError TokenGrant × Nat) × Stage :=
  let tokenLog := stage.tokenLog ++ [⟨platform, token⟩]
  let turn := stage.tokenTurns.head?.getD {}
  ((turn.outcome.map (·.grant tokenLog.length), turn.delay),
    { stage with tokenLog, tokenTurns := stage.tokenTurns.tail })

/-- A call of a token endpoint without a time limit, and how long it takes. -/
def askToken (platform : Platform) (token : Secret) (stage : Stage) :
    (Except TokenError TokenGrant × Nat) × Stage :=
  match stage.web with
  | none => stage.playToken platform token
  | some web =>
    let (outcome, stage) := (web.endpoints.renew platform token).run (serve web.detail) stage
    ((outcome.getD (.error (.malformedResponse "no outcome")), 0), stage)

/-- A call of a token endpoint with a time limit, and how long its caller waits. -/
def renewal (platform : Platform) (token : Secret) (limit : Nat) (stage : Stage) :
    (TokenReply × Nat) × Stage :=
  let ((answer, delay), stage) := stage.askToken platform token
  (if limit < delay then (.timedOut, limit) else (.answered answer, delay), stage)

/-- Answers a call of the engine. -/
def perform : (c : ServiceCall) → Stage → c.Answer × Stage
  | .records c, stage => stage.keep c
  | .getAccount id, stage => stage.look .getAccount (·.accounts.find? id)
  | .saveAccount account, stage => stage.saveAccount account
  | .lease account, stage =>
    let (lease, locks) := stage.locks.lease account
    (lease, { stage with locks })
  | .enter lease, stage => ((), { stage with locks := stage.locks.enter lease })
  | .leave lease, stage => ((), { stage with locks := stage.locks.leave lease })
  | .giveBack lease, stage => ((), { stage with locks := stage.locks.giveBack lease })
  | .sweep account, stage => ((), { stage with locks := stage.locks.sweep account })
  | .renew platform token limit, stage =>
    let ((reply, _), stage) := stage.renewal platform token limit
    (reply, stage)
  | .publish publisher context, stage => stage.publish publisher context

/-- Runs an action of the engine alone on the stage. -/
def act {α : Type} (action : Action Services α) (stage : Stage) :
    Option (Except PublishError α) × Stage :=
  action.run.run perform stage

/-- Runs an action on the records alone on the stage. -/
def record {α : Type} (action : Action Records α) (stage : Stage) :
    Option (Except PublishError α) × Stage :=
  action.run.run keep stage

end Stage

end Syndication.Rehearsal
