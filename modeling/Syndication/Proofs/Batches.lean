import Syndication.Broker
import Syndication.Proofs.Rehearsal

namespace Syndication

/-- What becomes of a batch whose envelopes are sent in their order: all of them are taken, or those
in front of the first one that fails. -/
inductive StopsAt (fault? : Nat → Envelope → Option ServiceFault) (batch : List Envelope) :
    Nat → Except ServiceFault Unit → Prop
  | through : (∀ k envelope, batch[k]? = some envelope → fault? k envelope = none) →
      StopsAt fault? batch batch.length (.ok ())
  | fault {taken : Nat} {envelope : Envelope} {fault : ServiceFault} :
      batch[taken]? = some envelope → fault? taken envelope = some fault →
      (∀ k < taken, ∀ envelope, batch[k]? = some envelope → fault? k envelope = none) →
      StopsAt fault? batch taken (.error fault)

namespace StopsAt

variable {fault? : Nat → Envelope → Option ServiceFault} {batch rest : List Envelope}
  {envelope : Envelope} {taken : Nat} {outcome : Except ServiceFault Unit}

theorem nil : StopsAt fault? [] 0 (.ok ()) := .through (by simp)

theorem first {fault : ServiceFault} (fails : fault? 0 envelope = some fault) :
    StopsAt fault? (envelope :: rest) 0 (.error fault) := .fault rfl fails nofun

theorem next (passes : fault? 0 envelope = none)
    (stops : StopsAt (fun k => fault? (k + 1)) rest taken outcome) :
    StopsAt fault? (envelope :: rest) (taken + 1) outcome := by
  cases stops with
  | through passesToo =>
    refine .through fun k other is => ?_
    cases k with
    | zero =>
      cases is
      exact passes
    | succ k => exact passesToo k other is
  | fault here fails passesToo =>
    refine .fault here fails fun k before other is => ?_
    cases k with
    | zero =>
      cases is
      exact passes
    | succ k => exact passesToo k (Nat.lt_of_succ_lt_succ before) other is

theorem error_iff (stops : StopsAt fault? batch taken outcome) :
    (∃ fault, outcome = .error fault) ↔
      ∃ k envelope, batch[k]? = some envelope ∧ fault? k envelope ≠ none := by
  cases stops with
  | through passes =>
    refine ⟨nofun, ?_⟩
    rintro ⟨k, envelope, here, fails⟩
    exact absurd (passes k envelope here) fails
  | fault here fails => exact ⟨fun _ => ⟨_, _, here, by simp [fails]⟩, fun _ => ⟨_, rfl⟩⟩

end StopsAt

namespace EventBus

variable (bus : EventBus)

/-- The fault of the bus for an envelope of a type that it refuses. -/
def fault? (envelope : Envelope) : Option ServiceFault :=
  if envelope.eventType ∈ bus.refused then
    some ⟨.eventBus, s!"Simulated publish failure for {envelope.eventType}", []⟩
  else none

theorem fault?_eq_none_iff {envelope : Envelope} :
    bus.fault? envelope = none ↔ envelope.eventType ∉ bus.refused := by
  simp [fault?]

theorem send_of_refused {envelope : Envelope} {fault : ServiceFault}
    (fails : bus.fault? envelope = some fault) : bus.send envelope = .error fault := by
  unfold fault? at fails
  split at fails
  · rename_i refused
    cases fails
    exact if_pos (by simpa using refused)
  · cases fails

theorem send_of_taken {envelope : Envelope} (passes : bus.fault? envelope = none) :
    bus.send envelope = .ok { bus with sent := bus.sent ++ [envelope] } := by
  have taken := bus.fault?_eq_none_iff.1 passes
  exact if_neg (by simpa using taken)

theorem sendAll_stopsAt (batch : List Envelope) : ∃ taken outcome,
    bus.sendAll batch = (outcome, { bus with sent := bus.sent ++ batch.take taken }) ∧
      StopsAt (fun _ => bus.fault?) batch taken outcome := by
  induction batch generalizing bus with
  | nil => exact ⟨0, .ok (), by simp [sendAll], .nil⟩
  | cons envelope rest ih =>
    cases reply : bus.fault? envelope with
    | some fault =>
      refine ⟨0, .error fault, ?_, .first reply⟩
      simp [sendAll, bus.send_of_refused reply]
    | none =>
      obtain ⟨taken, outcome, sent, stops⟩ := ih { bus with sent := bus.sent ++ [envelope] }
      refine ⟨taken + 1, outcome, ?_, .next reply stops⟩
      simp [sendAll, bus.send_of_taken reply, sent]

theorem sendAll_append (first second : List Envelope) :
    bus.sendAll (first ++ second) = match bus.sendAll first with
      | (.ok (), later) => later.sendAll second
      | (.error fault, later) => (.error fault, later) := by
  induction first generalizing bus with
  | nil => rfl
  | cons envelope rest ih =>
    simp only [List.cons_append, sendAll]
    cases bus.send envelope with
    | ok later => exact ih later
    | error fault => rfl

end EventBus

/-- A broker that answers what is published to it by a script, one reply after the other. -/
def Broker.recite : (c : BrokerCall) → (Nat → Except String Nat) →
    c.Answer × (Nat → Except String Nat)
  | .pop .., script => (.ok none, script)
  | .publish .., script => (script 0, fun k => script (k + 1))

namespace EventChannel

variable (channel : EventChannel)

/-- The fault of a channel for a reply of the broker. -/
def fault? : Except String Nat → Option ServiceFault
  | .ok _ => none
  | .error detail => some ⟨.eventBus, s!"Redis PUBLISH failed: {detail}", []⟩

theorem sendAll_cons (envelope : Envelope) (rest : List Envelope) :
    channel.sendAll (envelope :: rest) = .call (.publish channel.name envelope.text) fun
      | .ok _ => channel.sendAll rest
      | .error detail => .done (.error ⟨.eventBus, s!"Redis PUBLISH failed: {detail}", []⟩) :=
  congrArg (Program.call (I := Broker) (.publish channel.name envelope.text))
    (funext fun reply => by cases reply <;> rfl)

theorem sendAll_stopsAt (script : Nat → Except String Nat) (batch : List Envelope) :
    ∃ taken outcome, ((channel.sendAll batch).run Broker.recite script).1 = some outcome ∧
      (channel.sendAll batch).transcript Broker.recite script = (batch.take (taken + 1)).mapIdx
        (fun k envelope => ⟨.publish channel.name envelope.text, script k⟩) ∧
      StopsAt (fun k _ => fault? (script k)) batch taken outcome := by
  induction batch generalizing script with
  | nil => exact ⟨0, .ok (), rfl, rfl, .nil⟩
  | cons envelope rest ih =>
    rw [sendAll_cons]
    cases reply : script 0 with
    | error detail =>
      refine ⟨0, _, ?_, ?_, .first (congrArg fault? reply)⟩
      · simp [Program.run, Broker.recite, reply]
      · simp [Program.transcript, Broker.recite, reply]
    | ok receivers =>
      obtain ⟨taken, outcome, came, sent, stops⟩ := ih fun k => script (k + 1)
      refine ⟨taken + 1, outcome, ?_, ?_, .next (congrArg fault? reply) stops⟩
      · simpa [Program.run, Broker.recite, reply] using came
      · simpa [Program.transcript, Broker.recite, reply] using sent

theorem sendAll_append (first second : List Envelope) :
    channel.sendAll (first ++ second) = (channel.sendAll first).bind fun
      | .ok () => channel.sendAll second
      | .error fault => .done (.error fault) := by
  induction first with
  | nil => rfl
  | cons envelope rest ih =>
    rw [List.cons_append, sendAll_cons, sendAll_cons, ih, Program.call_bind]
    exact congrArg _ (funext fun reply => by cases reply <;> rfl)

end EventChannel

/-- A batch is sent in order, up to the first fault. Whatever a bus was sent before and whatever
types it refuses, it adds the envelopes in front of the first one of a refused type to what it was
sent, and answers with the fault for that one; it answers with a fault exactly if the batch has an
envelope of a refused type. Whatever the broker replies, a channel publishes the envelopes one by
one in their order, up to and with the first one that the broker replies to with an error, and
answers with the fault for that reply. On both, two batches in one are the first batch and, only if
it went through, the second one. -/
theorem batches_stop_at_fault :
    (∀ (bus : EventBus) (batch : List Envelope), ∃ taken outcome,
      bus.sendAll batch = (outcome, { bus with sent := bus.sent ++ batch.take taken }) ∧
      StopsAt (fun _ => bus.fault?) batch taken outcome ∧
      ((∃ fault, outcome = .error fault) ↔
        ∃ envelope ∈ batch, envelope.eventType ∈ bus.refused)) ∧
    (∀ (channel : EventChannel) (script : Nat → Except String Nat) (batch : List Envelope),
      ∃ taken outcome, ((channel.sendAll batch).run Broker.recite script).1 = some outcome ∧
        (channel.sendAll batch).transcript Broker.recite script = (batch.take (taken + 1)).mapIdx
          (fun k envelope => ⟨.publish channel.name envelope.text, script k⟩) ∧
        StopsAt (fun k _ => EventChannel.fault? (script k)) batch taken outcome) ∧
    (∀ (bus : EventBus) (first second : List Envelope),
      bus.sendAll (first ++ second) = match bus.sendAll first with
        | (.ok (), later) => later.sendAll second
        | (.error fault, later) => (.error fault, later)) ∧
    ∀ (channel : EventChannel) (first second : List Envelope),
      channel.sendAll (first ++ second) = (channel.sendAll first).bind fun
        | .ok () => channel.sendAll second
        | .error fault => .done (.error fault) := by
  refine ⟨fun bus batch => ?_, EventChannel.sendAll_stopsAt, EventBus.sendAll_append,
    EventChannel.sendAll_append⟩
  obtain ⟨taken, outcome, sent, stops⟩ := bus.sendAll_stopsAt batch
  refine ⟨taken, outcome, sent, stops, stops.error_iff.trans ?_⟩
  simp only [List.mem_iff_getElem?, ne_eq, EventBus.fault?_eq_none_iff, not_not]
  constructor
  · rintro ⟨k, envelope, here, refused⟩
    exact ⟨envelope, ⟨k, here⟩, refused⟩
  · rintro ⟨envelope, ⟨k, here⟩, refused⟩
    exact ⟨k, envelope, here, refused⟩

end Syndication
