import Syndication.Fault.Service

namespace Syndication.Rehearsal

/-- Where a fault can be planned. -/
inductive Point where
  | insertJob
  | updateJob
  | findJob
  | findJobByKey
  | insertPost
  | findPost
  | getAccount
  | saveAccount
  | findContent
  | mediaBytes
  | mediaType
deriving DecidableEq, Repr

namespace Point

def all : List Point :=
  [.insertJob, .updateJob, .findJob, .findJobByKey, .insertPost, .findPost, .getAccount,
    .saveAccount, .findContent, .mediaBytes, .mediaType]

def name : Point → String
  | .insertJob => "jobs.insert"
  | .updateJob => "jobs.update"
  | .findJob => "jobs.find_by_id"
  | .findJobByKey => "jobs.find_by_key"
  | .insertPost => "posts.insert"
  | .findPost => "posts.find"
  | .getAccount => "accounts.get"
  | .saveAccount => "accounts.save"
  | .findContent => "contents.get"
  | .mediaBytes => "media.download"
  | .mediaType => "media.content_type"

def ofName? (name : String) : Option Point := all.find? (·.name == name)

end Point

/-- What one call does. -/
inductive Effect where
  | normal
  | fault
  | duplicate
  /-- Finds nothing. -/
  | nothing
  /-- Leaves a row as it is and says so. -/
  | stale
  /-- Finds a job as if it were pending. -/
  | pending
deriving DecidableEq, Repr

namespace Effect

def all : List Effect := [.normal, .fault, .duplicate, .nothing, .stale, .pending]

def name : Effect → String
  | .normal => "ok"
  | .fault => "error"
  | .duplicate => "duplicate"
  | .nothing => "none"
  | .stale => "stale"
  | .pending => "pending"

def ofName? (name : String) : Option Effect := all.find? (·.name == name)

end Effect

/-- The effects that are still to come, each at its point. -/
abbrev Plan := List (Point × Effect)

namespace Plan

/-- The next effect at a point, and the plan without it. -/
def take (point : Point) : Plan → Effect × Plan
  | [] => (.normal, [])
  | (p, effect) :: rest =>
    if p = point then (effect, rest)
    else
      let (found, left) := take point rest
      (found, (p, effect) :: left)

end Plan

/-- The text of a planned fault. -/
def injected (point : Point) : String := s!"injected failure in {point.name}"

end Syndication.Rehearsal
