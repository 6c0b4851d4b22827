import Syndication.Rehearsal.Stage

namespace Syndication.Rehearsal

/-- A program between two of its turns. -/
inductive Member (α : Type) where
  | ready (rest : Program Services α)
  /-- Waits until this time, in milliseconds since the company began. -/
  | asleep (wake : Nat) (rest : Program Services α)
  /-- Waits to enter a lock. -/
  | outside (lease : Lease) (rest : Program Services α)
  | finished (value : Option α)

namespace Member

variable {α : Type}

/-- Acts until it has to wait or comes to its end. -/
def act (time : Nat) : Program Services α → Stage → Member α × Stage
  | .done value, stage => (.finished (some value), stage)
  | .overflow, stage => (.finished none, stage)
  | .call (.enter lease) next, stage =>
    if stage.locks.isFree lease then
      act time (next ()) { stage with locks := stage.locks.enter lease }
    else (.outside lease (next ()), stage)
  | .call (.renew platform token limit) next, stage =>
    let ((reply, delay), stage) := stage.renewal platform token limit
    if delay = 0 then act time (next reply) stage
    else (.asleep (time + delay) (next reply), stage)
  | .call c next, stage =>
    let (answer, stage) := stage.perform c
    act time (next answer) stage

/-- Whether the member need not wait now. -/
def canGoOn (time : Nat) (stage : Stage) : Member α → Bool
  | ready _ => true
  | asleep wake _ => wake ≤ time
  | outside lease _ => stage.locks.isFree lease
  | finished _ => false

/-- The turn of a member that need not wait. -/
def goOn (time : Nat) (member : Member α) (stage : Stage) : Member α × Stage :=
  match member with
  | ready rest => act time rest stage
  | asleep _ rest => act time rest stage
  | outside lease rest => act time rest { stage with locks := stage.locks.enter lease }
  | finished value => (finished value, stage)

/-- When the member's endpoint answers. -/
def wake? : Member α → Option Nat
  | asleep wake _ => some wake
  | _ => none

/-- What the program came to. -/
def value? : Member α → Option α
  | finished value => value
  | _ => none

end Member

namespace Company

variable {α : Type}

/-- The turn of the first member that need not wait, if there is one. -/
def turn? (time : Nat) : List (Member α) → Stage → Option (List (Member α) × Stage)
  | [], _ => none
  | member :: rest, stage =>
    if member.canGoOn time stage then
      let (member, stage) := member.goOn time stage
      some (member :: rest, stage)
    else (turn? time rest stage).map fun (rest, stage) => (member :: rest, stage)

/-- A number of turns, each of a member or of time. -/
def play : Nat → Nat → List (Member α) → Stage → List (Member α) × Stage
  | 0, _, members, stage => (members, stage)
  | turns + 1, time, members, stage =>
    match turn? time members stage with
    | some (members, stage) => play turns time members stage
    | none =>
      match (members.filterMap Member.wake?).min? with
      | some wake => play turns wake members stage
      | none => (members, stage)

end Company

/-- Runs actions of the engine together on the stage. Each enters a lock at most once and asks an
endpoint at most once, so that four turns for each are enough: three of its own, and one of
time. -/
def Stage.actTogether {α : Type} (actions : List (Action Services α)) (stage : Stage) :
    List (Option (Except PublishError α)) × Stage :=
  let members := actions.map fun action => .ready action.run
  let (members, stage) := Company.play (4 * actions.length) 0 members stage
  (members.map Member.value?, stage)

end Syndication.Rehearsal
