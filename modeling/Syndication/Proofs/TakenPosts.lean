import Syndication.Proofs.Classification
import Syndication.Proofs.Creation
import Syndication.Proofs.Protocols

namespace Syndication

theorem Program.Follows.of_bind_done {I : Interface} {α β : Type} {p : Program I α}
    {f : α → Program I β} {log : List I.Exchange} {last : β}
    (follows : (p.bind f).Follows log (.done last)) : ∃ value first second,
      log = first ++ second ∧ p.Follows first (.done value) ∧
        (f value).Follows second (.done last) := by
  rcases follows.of_bind with ⟨p', begun, ended⟩ | split
  · cases p' with
    | done value => exact ⟨value, log, [], (List.append_nil log).symm, begun, ended ▸ .stop _⟩
    | call c next => cases ended
    | overflow => cases ended
  · exact split

/-- A move to failure writes an end only if it answers so. -/
theorem Ledger.fail_deeds {job row : Job} {message : String} {isNew : Bool}
    {log : List Services.Exchange}
    (follows : (fail job message).toServices.run.Follows log (.done (.ok (row, isNew)))) :
    log.filterMap Deed.of? = (if isNew then some row else none).toList.map .ended := by
  have moves : (fail job message).Does Scene.any Deed.ofRecord?
      (Moves (fun answer => if answer.2 then some answer.1 else none) []) [] () :=
    fail_does job message
  exact moves.toServices.does.goes (follows.goes trivial Scene.any_around)

namespace Action

variable {I : Interface} {α β : Type} {x : Action I α} {f : α → Action I β}
  {log : List I.Exchange}

theorem follows_bind_ok {last : β} (follows : (x >>= f).run.Follows log (.done (.ok last))) :
    ∃ value first second, log = first ++ second ∧ x.run.Follows first (.done (.ok value)) ∧
      (f value).run.Follows second (.done (.ok last)) := by
  rw [run_bind] at follows
  obtain ⟨outcome, first, second, parts, begun, ended⟩ := follows.of_bind_done
  cases outcome with
  | ok value => exact ⟨value, first, second, parts, begun, ended⟩
  | error error => cases ended

/-- A call that the first of two actions does not make is made by the second one. -/
theorem follows_bind_of_mem {rest : Program I (Except PublishError β)}
    (follows : (x >>= f).run.Follows log rest) {allowed : I.Call → Prop}
    (only : x.CallsOnly allowed) {exchange : I.Exchange} (member : exchange ∈ log)
    (other : ¬ allowed exchange.1) : ∃ value first second, log = first ++ second ∧
      (∀ earlier ∈ first, allowed earlier.1) ∧ (f value).run.Follows second rest ∧
      exchange ∈ second := by
  rw [run_bind] at follows
  rcases follows.of_bind with ⟨_, begun, _⟩ | ⟨outcome, first, second, rfl, begun, goesOn⟩
  · exact absurd ((Program.Yields.follows only.meets begun).1 exchange member) other
  · have allowedFirst := (Program.Yields.follows only.meets begun).1
    have inSecond : exchange ∈ second := by
      rcases List.mem_append.1 member with before | after
      · exact absurd (allowedFirst exchange before) other
      · exact after
    cases outcome with
    | ok value => exact ⟨value, first, second, rfl, allowedFirst, goesOn, inSecond⟩
    | error error =>
      cases goesOn
      cases inSecond

end Action

/-- A call on the records of an allowed kind. -/
def ServiceCall.OnRecords (allowed : RecordCall → Prop) : ServiceCall → Prop
  | .records c => allowed c
  | _ => False

theorem Action.CallsOnly.onRecords {α : Type} {allowed : RecordCall → Prop}
    {work : Action Records α} (only : work.CallsOnly allowed) :
    work.toServices.CallsOnly (ServiceCall.OnRecords allowed) :=
  ⟨Program.Yields.through only.meets fun _ is => is⟩

theorem Action.CallsOnly.anything {I : Interface} {α : Type} (x : Action I α) :
    x.CallsOnly fun _ => True := by
  suffices general : ∀ p : Program I (Except PublishError α),
      p.Meets (.free fun _ => True) (fun outcome _ => ∀ value, outcome = .ok value → True) () from
    ⟨general x.run⟩
  intro p
  induction p with
  | done outcome => exact fun _ _ => trivial
  | overflow => trivial
  | call c next ih => exact fun _ _ _ => ⟨trivial, fun a _ _ => ih a⟩

/-- A call on the records. -/
abbrev ServiceCall.IsOnRecords : ServiceCall → Prop := ServiceCall.OnRecords fun _ => True

theorem Action.toServices_onRecords {α : Type} (work : Action Records α) :
    work.toServices.CallsOnly ServiceCall.IsOnRecords :=
  (CallsOnly.anything work).onRecords

theorem ServiceCall.OnRecords.within {allowed : RecordCall → Prop} {c : ServiceCall}
    (onRecords : c.OnRecords allowed) : c.Within allowed := by
  cases c with
  | records c => exact onRecords
  | _ => trivial

namespace Engine

open Syndication.Action Program

variable {engine : Engine} {job : Job} {request : Request} {log : List Services.Exchange}
  {publisher : Platform} {context : PublishContext}
  {answer : Except PlatformError PublishResult}

/-- What an attempt comes to when a publisher answered. -/
def attemptOutcome (answer : Except PlatformError PublishResult) :
    Except PublishError PublishResult :=
  answer.mapError fun error => .platform error.kind error.message

/-- An attempt is over when a publisher answered. -/
theorem attempt_published {rest : Program Services (Except PublishError PublishResult)}
    (follows : (engine.attempt job request).run.Follows log rest)
    (asked : ⟨.publish publisher context, answer⟩ ∈ log) :
    rest = .done (attemptOutcome answer) := by
  have elsewhere : ¬ (ServiceCall.publish publisher context).IsPreparing := id
  unfold attempt at follows
  obtain ⟨found, _, log, rfl, _, follows, asked⟩ :=
    follows_bind_of_mem follows (.persisted (Yields.ask trivial)) asked elsewhere
  cases found with
  | none =>
    cases follows
    cases asked
  | some account =>
    obtain ⟨_, _, log, rfl, _, follows, asked⟩ :=
      follows_bind_of_mem follows .ofExcept asked elsewhere
    obtain ⟨token, _, log, rfl, _, follows, asked⟩ :=
      follows_bind_of_mem follows (engine.renewal.validToken_preparing account) asked elsewhere
    obtain ⟨resolved, _, log, rfl, _, follows, asked⟩ :=
      follows_bind_of_mem follows .ofExcept asked elsewhere
    cases follows with
    | stop => cases asked
    | @call _ _ replied later _ ended =>
      cases replied with
      | ok result =>
        cases ended
        cases List.mem_singleton.1 asked
        rfl
      | error error =>
        cases ended
        cases List.mem_singleton.1 asked
        rfl

theorem tryAnnounce_onRecords {α : Type} (announcement : Action Records α) :
    (tryAnnounce announcement).CallsOnly ServiceCall.IsOnRecords :=
  .always (.map (announcement.toServices_onRecords.meets.weaken fun _ _ _ => trivial))

theorem reportStored_onRecords (job : Job) :
    (reportStored job).CallsOnly ServiceCall.IsOnRecords := by
  unfold reportStored
  split
  · refine .bind (toServices_onRecords _) fun found => ?_
    cases found with
    | none => exact .pure
    | some post => exact .bind (tryAnnounce_onRecords _) fun _ => .pure
  · exact .bind (tryAnnounce_onRecords _) fun _ => .pure
  · exact .pure

theorem completeFailure_onRecords (job : Job) (kind : FailureKind) (message : String) :
    (completeFailure job kind message).CallsOnly ServiceCall.IsOnRecords := by
  unfold completeFailure
  refine .bind (toServices_onRecords _) fun answer => ?_
  obtain ⟨row, isNew⟩ := answer
  cases isNew with
  | false => exact reportStored_onRecords row
  | true =>
    refine .bind (tryAnnounce_onRecords _) fun _ => ?_
    split
    · exact .bind (tryAnnounce_onRecords _) fun _ => .pure
    · exact .pure

theorem completeSuccess_onRecords (job : Job) (result : PublishResult) :
    (completeSuccess job result).CallsOnly ServiceCall.IsOnRecords := by
  unfold completeSuccess
  refine .bind (toServices_onRecords _) fun answer => ?_
  obtain ⟨row, post⟩ := answer
  cases post with
  | none => exact reportStored_onRecords row
  | some post => exact .bind (tryAnnounce_onRecords _) fun _ => .pure

/-- Once its attempt is over, an execution asks only the records. -/
theorem complete_onRecords (job : Job) (outcome : Except PublishError PublishResult) :
    (complete job outcome).CallsOnly ServiceCall.IsOnRecords := by
  cases outcome with
  | error error => exact completeFailure_onRecords job _ _
  | ok result =>
    simp only [complete]
    split
    · exact completeSuccess_onRecords job result
    · exact completeFailure_onRecords job _ _

/-- When its publisher answered, an execution goes on to bring its job to the end that the answer
calls for. It made only quiet calls before. -/
theorem execute_published {execution : Execution}
    (follows : (engine.execute request).run.Follows log (.done (.ok execution)))
    (asked : ⟨.publish publisher context, answer⟩ ∈ log) : ∃ job before after,
      log = before ++ after ∧
      (∀ exchange ∈ before, exchange.1.Within RecordCall.IsQuiet) ∧
      (complete job (attemptOutcome answer)).run.Follows after (.done (.ok execution)) := by
  have elsewhere : ¬ (ServiceCall.publish publisher context).OnRecords RecordCall.IsQuiet := id
  unfold execute at follows
  obtain ⟨job, opening, log, rfl, opens, follows, asked⟩ :=
    follows_bind_of_mem follows (Ledger.openJob_quiet _ request).onRecords asked elsewhere
  split at follows
  · cases follows
    cases asked
  obtain ⟨job, starting, log, rfl, starts, follows, asked⟩ :=
    follows_bind_of_mem follows (Ledger.start_quiet job).onRecords asked elsewhere
  split at follows
  · cases follows
    cases asked
  obtain ⟨_, telling, log, rfl, tells, follows, asked⟩ :=
    follows_bind_of_mem follows (Announcement.started_quiet job).onRecords asked elsewhere
  obtain ⟨outcome, attempting, log, rfl, attempts, completes⟩ := follows_bind_ok follows
  obtain ⟨outcome, attempting, nothing, rfl, attempts, ended⟩ := attempts.of_bind_done
  cases ended
  rw [List.append_nil] at asked
  have outside := (Yields.follows (engine.attempt_outside job request).meets attempts).1
  have quiet : ∀ exchange ∈ opening ++ (starting ++ (telling ++ attempting)),
      exchange.1.Within RecordCall.IsQuiet := by
    simp only [List.forall_mem_append]
    exact ⟨fun e member => (opens e member).within, fun e member => (starts e member).within,
      fun e member => (tells e member).within, fun e member => (outside e member).within_quiet⟩
  rcases List.mem_append.1 asked with here | after
  · obtain rfl : outcome = attemptOutcome answer := by
      simpa using attempt_published attempts here
    exact ⟨job, _, log, by simp, quiet, completes⟩
  · have onRecords := (Yields.follows (complete_onRecords job outcome).meets completes).1
    exact (onRecords _ after).elim

/-- If an execution wrote the end of its job, the kind of its failure is that of its attempt. -/
theorem completeFailure_kind {kind : FailureKind} {message : String} {execution : Execution}
    (follows : (completeFailure job kind message).run.Follows log (.done (.ok execution)))
    {row : Job} (moved : ⟨.records (.updateJob row), .ok true⟩ ∈ log)
    (finished : row.isTerminal = true) :
    ∃ text taken, execution.outcome = .failed kind text taken := by
  unfold completeFailure at follows
  obtain ⟨⟨written, isNew⟩, moving, log, rfl, moves, follows⟩ := follows_bind_ok follows
  cases isNew with
  | true =>
    obtain ⟨_, _, log, rfl, _, follows⟩ := follows_bind_ok follows
    split at follows
    · obtain ⟨taken, _, log, rfl, _, follows⟩ := follows_bind_ok follows
      cases follows
      exact ⟨_, _, rfl⟩
    · cases follows
      exact ⟨_, _, rfl⟩
  | false =>
    -- this execution was overtaken, and wrote no end
    exfalso
    rcases List.mem_append.1 moved with before | after
    · have none : moving.filterMap Deed.of? = [] := Ledger.fail_deeds moves
      have shown : Deed.of? ⟨.records (.updateJob row), .ok true⟩ = some (.ended row) := by
        simp [Deed.of?, Deed.ofRecord?, finished]
      have deed := List.mem_filterMap.2 ⟨_, before, shown⟩
      simp [none] at deed
    · have quiet := (Yields.follows (reportStored_quiet written).meets follows).1 _ after
      simp [Job.isTerminal_eq_false quiet] at finished

end Engine

/-- The platform took the post of the execution with this number: the request that publishes was
answered with this reply of success. -/
def OfficeLog.Took (log : OfficeLog) (i : Nat) (publisher : Platform) (reply : Http.Reply) : Prop :=
  ∃ context answer base web, ⟨.publish publisher context, answer⟩ ∈ log.of i ∧
    (Publisher.publish base publisher context).run.Follows web (.done answer) ∧
    Web.reply? web (Publisher.publishing publisher) = some reply ∧ reply.isSuccess = true

/-- What came of the call of the publisher: a success with the name of the post, or an error of the
kind of those of the network. -/
theorem OfficeLog.Took.answer {log : OfficeLog} {i : Nat} {publisher : Platform}
    {reply : Http.Reply} (took : log.Took i publisher reply) :
    ∃ context answer, ⟨.publish publisher context, answer⟩ ∈ log.of i ∧
      ((∃ id link, Publisher.postId? publisher reply = some id ∧
          answer = .ok (.published id link)) ∨
        ∃ error, Publisher.postId? publisher reply = none ∧ answer = .error error ∧
          error.kind = .transientNetwork) := by
  obtain ⟨context, answer, base, web, asked, follows, replied, success⟩ := took
  refine ⟨context, answer, asked, ?_⟩
  cases named : Publisher.postId? publisher reply with
  | some id =>
    obtain ⟨outcome, ⟨⟩, _, names⟩ := Publisher.publish_outcome follows trivial
    exact .inl ⟨id, _, rfl, names id ⟨reply, replied, success, named⟩⟩
  | none =>
    cases Publisher.publish_nameless follows replied success named
    exact .inr ⟨_, rfl, rfl, rfl⟩

namespace Office

variable {log : OfficeLog} {office : Office} {i : Nat} {engine : Engine} {request : Request}

/-- How an execution went that came to an end and whose publisher answered. -/
theorem Runs.execute_published (reached : Runs {} log office) {execution : Execution}
    (here : office.errands[i]? = some ⟨.execute engine request, .done (.ok (.executed execution))⟩)
    {publisher : Platform} {context : PublishContext} {answer : Except PlatformError PublishResult}
    (asked : ⟨.publish publisher context, answer⟩ ∈ log.of i) : ∃ job before after,
      log.of i = before ++ after ∧
      (∀ exchange ∈ before, exchange.1.Within RecordCall.IsQuiet) ∧
      (Engine.complete job (Engine.attemptOutcome answer)).run.Follows after
        (.done (.ok execution)) := by
  obtain ⟨value, first, second, parts, follows, ended⟩ :=
    Action.follows_bind_ok (reached.follows here)
  cases ended
  rw [parts, List.append_nil] at asked
  rw [parts, List.append_nil]
  exact Engine.execute_published follows asked

/-- When a retry is asked for of a post that is there. Take any run of an office from its beginning,
and an execution whose publisher had its publishing request answered with success. The execution
asks for a retry exactly if the reply had no name of the post in it that could be read, and the
execution came to its end after it wrote the failure of the job itself, with attempts left. -/
theorem retry_of_taken_iff (reached : Runs {} log office)
    {rest : Program Services (Except PublishError Reply)}
    (here : office.errands[i]? = some ⟨.execute engine request, rest⟩) {publisher : Platform}
    {reply : Http.Reply} (took : log.Took i publisher reply) :
    (∃ envelope ∈ log.sentBy i, envelope.eventType = "publish.retry_requested.v1") ↔
      Publisher.postId? publisher reply = none ∧
      ∃ row outcome, rest = .done (.ok (.executed ⟨row, outcome⟩)) ∧ row.status = .failed ∧
        ⟨.records (.updateJob row), .ok true⟩ ∈ log.of i ∧ row.retryCount < row.maxRetries := by
  obtain ⟨context, answer, asked, answered⟩ := took.answer
  rw [reached.retry_iff here]
  constructor
  · rintro ⟨row, kind, message, taken, rfl, failed, moved, _, budget⟩
    refine ⟨?_, row, _, rfl, failed, moved, budget⟩
    obtain ⟨job, before, after, parts, quiet, completes⟩ := reached.execute_published here asked
    rcases answered with ⟨id, link, _, rfl⟩ | ⟨_, nameless, _⟩
    · -- a success is booked, and never a failure
      exfalso
      have books := (Program.Yields.follows
        (Engine.completeSuccess_books job (.published id link)).meets completes).1
      rw [parts] at moved
      have failsNone : row.status ≠ .failed := by
        rcases List.mem_append.1 moved with inBefore | inAfter
        · exact (quiet _ inBefore).failsNoJob
        · exact (books _ inAfter).mono fun _ is => is.failsNoJob
      exact failsNone failed
    · exact nameless
  · rintro ⟨nameless, row, outcome, rfl, failed, moved, budget⟩
    obtain ⟨job, before, after, parts, quiet, completes⟩ := reached.execute_published here asked
    rcases answered with ⟨id, link, named, _⟩ | ⟨error, _, rfl, kind⟩
    · rw [named] at nameless
      cases nameless
    · have finished : row.isTerminal = true := Job.isTerminal_iff.2 (by simp [failed])
      have inAfter : ⟨.records (.updateJob row), .ok true⟩ ∈ after := by
        rw [parts] at moved
        refine (List.mem_append.1 moved).resolve_left fun inBefore => ?_
        have pending : row.status = .pending := quiet _ inBefore
        simp [pending] at failed
      obtain ⟨text, taken, rfl⟩ := Engine.completeFailure_kind completes inAfter finished
      exact ⟨row, _, text, taken, rfl, failed, moved, .inr kind, budget⟩

end Office

namespace Rehearsal.Cast

/-- A stage on which the next call of the publisher comes to this, and all other calls do their
work. -/
def telling (outcome : Except PlatformError PublishResult) : Stage :=
  { stage [] [] with publishTurns := [(.youtube, { outcome := some outcome })] }

theorem telling_honest (outcome : Except PlatformError PublishResult) :
    (telling outcome).Honest where
  plan := (stage_honest [] []).plan
  alone entry member := by
    obtain rfl := List.mem_singleton.1 member
    rfl
  scripted := rfl

/-- A session on such a stage in which a request is delivered. -/
def ending (outcome : Except PlatformError PublishResult) : Session :=
  Session.attend { stage := telling outcome } (.execute engine request)

theorem ending_isRun (outcome : Except PlatformError PublishResult) : (ending outcome).IsRun :=
  (Session.IsRun.of_empty (telling_honest outcome) rfl).attend _ (by simp [Task.job?])

theorem ending_errands (outcome : Except PlatformError PublishResult) : ∃ rest,
    (ending outcome).office.errands = [⟨.execute engine request, rest⟩] := by
  simp [Session.office, ending, Session.errands_attend]

/-- The exchange is the call of the publisher in this cast, with this answer. -/
def publishes (answer : Except PlatformError PublishResult) (exchange : Services.Exchange) : Bool :=
  match exchange with
  | ⟨.publish publisher called, answered⟩ =>
    publisher == .youtube && called == context && answered == answer
  | _ => false

theorem mem_of_publishes {answer : Except PlatformError PublishResult}
    {calls : List Services.Exchange} (published : calls.any (publishes answer) = true) :
    ⟨.publish .youtube context, answer⟩ ∈ calls := by
  obtain ⟨⟨c, answered⟩, member, is⟩ := List.any_eq_true.1 published
  cases c with
  | publish publisher called =>
    simp only [publishes, Bool.and_eq_true, beq_iff_eq] at is
    obtain ⟨⟨rfl, rfl⟩, rfl⟩ := is
    exact member
  | _ => cases is

/-- The body of a reply that names nothing. -/
def unnamed : String := "\x7b\x7d"

/-- What the publisher of videos comes to when it is told the name of the video. -/
def uploaded : Except PlatformError PublishResult :=
  .ok (.published "video-1" "https://www.youtube.com/watch?v=video-1")

/-- What it comes to when the name cannot be read. -/
def unread : Except PlatformError PublishResult :=
  .error (.unexpectedResponse 200 Step.malformed)

def success (body : String) : Http.Reply := ⟨200, headers, .text body⟩

/-- The publisher of videos at its work. -/
def upload : Program Web (Except PlatformError PublishResult) :=
  (Publisher.publish Publisher.defaultBase .youtube context).run

/-- Its log when its upload is answered with this body. -/
def uploading (body : String) : List Web.Exchange :=
  upload.transcript line [answer 200 "", answer 200 body]

theorem exists_uploading (body : String) :
    ∃ rest, upload.Follows (uploading body) rest ∧ rest.IsOver := by
  unfold uploading
  exact upload.exists_follows line _

/-- What the line and the stage show of these uploads. -/
theorem uploads_shown : Web.reply? (uploading unnamed) 1 = some (success unnamed) ∧
    Publisher.postId? .youtube (success unnamed) = none ∧
    Web.reply? (uploading (naming "video-1")) 1 = some (success (naming "video-1")) ∧
    Publisher.postId? .youtube (success (naming "video-1")) = some "video-1" ∧
    ((ending unread).log.of 0).any (publishes unread) = true ∧
    ((ending uploaded).log.of 0).any (publishes uploaded) = true ∧
    ∃ envelope ∈ (ending unread).log.sentBy 0,
      envelope.eventType = "publish.retry_requested.v1" := by
  decide +kernel

theorem upload_unnamed : upload.Follows (uploading unnamed) (.done unread) := by
  obtain ⟨replied, nameless, _⟩ := uploads_shown
  obtain ⟨rest, follows, _⟩ := exists_uploading unnamed
  obtain rfl := Publisher.publish_nameless follows replied rfl nameless
  exact follows

theorem upload_named : upload.Follows (uploading (naming "video-1")) (.done uploaded) := by
  obtain ⟨_, _, replied, named, _⟩ := uploads_shown
  obtain ⟨rest, follows, isOver⟩ := exists_uploading (naming "video-1")
  obtain ⟨outcome, rfl, _, names⟩ := Publisher.publish_outcome follows isOver
  obtain rfl := names _ ⟨success (naming "video-1"), replied, rfl, named⟩
  exact follows

/-- If the execution of a session got what this publisher came to, the platform took its post. -/
theorem took_of_uploading {session : Session} {body : String}
    {outcome : Except PlatformError PublishResult}
    (published : (session.log.of 0).any (publishes outcome) = true)
    (follows : upload.Follows (uploading body) (.done outcome))
    (replied : Web.reply? (uploading body) 1 = some (success body)) :
    session.log.Took 0 .youtube (success body) :=
  ⟨context, outcome, _, _, mem_of_publishes published, follows, replied, rfl⟩

end Rehearsal.Cast

namespace Office

open Rehearsal

/-- An upload whose reply names the video is not repeated. -/
theorem retry_of_taken_named : ∃ log office reply, Runs {} log office ∧
    log.Took 0 .youtube reply ∧ Publisher.postId? .youtube reply = some "video-1" ∧
    ¬ ∃ envelope ∈ log.sentBy 0, envelope.eventType = "publish.retry_requested.v1" := by
  obtain ⟨_, _, replied, named, _, published, _⟩ := Cast.uploads_shown
  have took := Cast.took_of_uploading published Cast.upload_named replied
  obtain ⟨rest, errands⟩ := Cast.ending_errands Cast.uploaded
  have iff := retry_of_taken_iff (Cast.ending_isRun Cast.uploaded).1 (by rw [errands]; rfl) took
  refine ⟨_, _, _, (Cast.ending_isRun Cast.uploaded).1, took, named, fun asks => ?_⟩
  rw [(iff.1 asks).1] at named
  cases named

/-- An upload was answered with success, but its reply does not name the video. A retry of it is
asked for. -/
theorem retry_after_upload : ∃ log office reply, Runs {} log office ∧
    office.errands.map (·.task) = [.execute Cast.engine Cast.request] ∧
    log.Took 0 .youtube reply ∧
    ∃ envelope ∈ log.sentBy 0, envelope.eventType = "publish.retry_requested.v1" := by
  obtain ⟨replied, _, _, _, published, _, asks⟩ := Cast.uploads_shown
  have took := Cast.took_of_uploading published Cast.upload_unnamed replied
  obtain ⟨rest, errands⟩ := Cast.ending_errands Cast.unread
  exact ⟨_, _, _, (Cast.ending_isRun Cast.unread).1, by rw [errands]; rfl, took, asks⟩

end Office

end Syndication
