import Syndication.Proofs.NextAttempt
import Syndication.Proofs.Redelivery
import Syndication.Proofs.Undisturbed

namespace Syndication

namespace Text

theorem lacks_iff {mark cs : List Char} (nonempty : mark ≠ []) :
    Lacks mark cs ↔ ¬ mark <:+: cs := by
  induction cs with
  | nil => simp [Lacks, splitFirst?, nonempty]
  | cons c cs ih => rw [lacks_cons_iff, ih, List.infix_cons_iff, not_or]

end Text

namespace RetryEvent

theorem nextKey_of_lacks {key : String} (lacks : Text.Lacks attemptMark.toList key.toList)
    (attempt : UInt32) :
    nextKey key attempt = key ++ attemptMark ++ .ofList (Text.decimal attempt.toNat) := by
  apply String.toList_injective
  rw [nextKey_toList, keyBase, Text.beforeFirst_of_lacks lacks]
  simp

/-- The keys of all attempts after the first one are made from its key. -/
theorem nextKey_nextKey (key : String) (attempt next : UInt32) :
    nextKey (nextKey key attempt) next = nextKey key next :=
  nextKey_eq_iff.2 ⟨keyBase_nextKey key attempt, rfl⟩

theorem nextKey_ne_of_lacks {key : String} (lacks : Text.Lacks attemptMark.toList key.toList)
    (attempt : UInt32) : nextKey key attempt ≠ key := by
  intro same
  have length := congrArg String.length same
  have mark : attemptMark.length = 9 := by decide
  rw [nextKey_of_lacks lacks, String.length_append, String.length_append] at length
  omega

end RetryEvent

/-- The request is for the same thing as `r`, `n` attempts later. `budget` is the retry budget of
requests that set none. -/
structure Request.IsAttemptOf (request r : Request) (budget : UInt32) (n : Nat) : Prop where
  userId : request.userId = r.userId
  accountId : request.accountId = r.accountId
  contentId : request.contentId = r.contentId
  platform : Text.trim request.platform = Text.trim r.platform
  postType : request.effectivePostType = r.effectivePostType
  maxRetries : request.maxRetries.getD budget = r.maxRetries.getD budget
  attempt : request.attempt.toNat = r.attempt.toNat + n
  key : request.idempotencyKey = if n = 0 then r.idempotencyKey else
    r.idempotencyKey.map fun key =>
      key ++ attemptMark ++ .ofList (Text.decimal request.attempt.toNat)

theorem Request.IsAttemptOf.first (r : Request) (budget : UInt32) : r.IsAttemptOf r budget 0 := by
  constructor <;> rfl

/-- What a job says of the request that it was made for. -/
theorem Job.MadeFor.fields {job : Job} {budget : UInt32} {request : Request}
    (made : job.MadeFor budget request) : job.userId = request.userId ∧
      job.accountId = request.accountId ∧ job.contentId = request.contentId ∧
      job.platform = Text.trim request.platform ∧ job.postType = request.effectivePostType ∧
      job.maxRetries = request.maxRetries.getD budget ∧ job.retryCount = request.attempt ∧
      job.idempotencyKey = request.idempotencyKey := by
  obtain ⟨id, now, work⟩ := made
  exact ⟨congrArg Job.userId work, congrArg Job.accountId work, congrArg Job.contentId work,
    congrArg Job.platform work, congrArg Job.postType work, congrArg Job.maxRetries work,
    congrArg Job.retryCount work, congrArg Job.idempotencyKey work⟩

theorem Job.MadeFor.retryCount {job : Job} {budget : UInt32} {request : Request}
    (made : job.MadeFor budget request) : job.retryCount = request.attempt := by
  obtain ⟨_, _, _, _, _, _, count, _⟩ := made.fields
  exact count

theorem Job.MadeFor.idempotencyKey {job : Job} {budget : UInt32} {request : Request}
    (made : job.MadeFor budget request) : job.idempotencyKey = request.idempotencyKey := by
  obtain ⟨_, _, _, _, _, _, _, key⟩ := made.fields
  exact key

theorem Job.MadeFor.isFresh {job : Job} {budget : UInt32} {request : Request}
    (made : job.MadeFor budget request) (valid : request.validate = .ok ()) : job.work.IsFresh := by
  obtain ⟨id, now, work⟩ := made
  exact ⟨request, budget, id, now, valid, work⟩

/-- The retry of an attempt is the next one, and its number is within the budget. -/
theorem RetryEvent.Continues.isAttemptOf {event : RetryEvent} {row : Job} {budget : UInt32}
    {request r : Request} {n : Nat} (continues : event.Continues row)
    (left : row.retryCount < row.maxRetries) (made : row.MadeFor budget request)
    (isAttempt : request.IsAttemptOf r budget n)
    (plain : ∀ key, r.idempotencyKey = some key → Text.Lacks attemptMark.toList key.toList)
    (id : EventId) (scheduledAt : Timestamp) :
    (event.nextRequest id scheduledAt).IsAttemptOf r budget (n + 1) ∧
      r.attempt.toNat + n < (r.maxRetries.getD budget).toNat := by
  obtain ⟨user, account, content, platform, postType, maxRetries, count, key⟩ := made.fields
  have number : event.nextAttempt.toNat = r.attempt.toNat + (n + 1) := by
    rw [continues.nextAttempt_toNat left, count, isAttempt.attempt, Nat.add_assoc]
  have below : r.attempt.toNat + n < (r.maxRetries.getD budget).toNat := by
    rw [maxRetries, isAttempt.maxRetries, count] at left
    rw [← isAttempt.attempt]
    exact UInt32.lt_iff_toNat_lt.1 left
  refine ⟨⟨?_, ?_, ?_, ?_, ?_, ?_, number, ?_⟩, below⟩
  · exact (continues.userId.trans user).trans isAttempt.userId
  · exact (continues.accountId.trans account).trans isAttempt.accountId
  · exact (continues.contentId.trans content).trans isAttempt.contentId
  · rw [nextRequest, continues.platform, platform, Text.trim_trim, isAttempt.platform]
  · exact (continues.postType.trans postType).trans isAttempt.postType
  · exact (continues.maxRetries.trans maxRetries).trans isAttempt.maxRetries
  · simp only [nextRequest, continues.idempotencyKey, key, isAttempt.key, Nat.add_one_ne_zero,
      if_false]
    cases has : r.idempotencyKey with
    | none => simp
    | some first =>
      have lacks := plain first has
      split
      · simp [nextKey_of_lacks lacks]
      · simp [← nextKey_of_lacks lacks, nextKey_nextKey]

namespace Request.IsAttemptOf

variable {request r : Request} {budget : UInt32} {n : Nat}
  (isAttempt : request.IsAttemptOf r budget n) {key : String} (has : r.idempotencyKey = some key)
  (lacks : Text.Lacks attemptMark.toList key.toList)
include isAttempt has lacks

theorem nextKey_eq (retried : n ≠ 0) :
    request.idempotencyKey = some (RetryEvent.nextKey key request.attempt) := by
  rw [isAttempt.key, if_neg retried, has, RetryEvent.nextKey_of_lacks lacks]
  rfl

/-- An attempt does not have the key of a later one. -/
theorem key_ne {later : UInt32} (isLater : request.attempt < later) :
    request.idempotencyKey ≠ some (RetryEvent.nextKey key later) := by
  intro same
  by_cases retried : n = 0
  · rw [isAttempt.key, if_pos retried, has] at same
    exact RetryEvent.nextKey_ne_of_lacks lacks later (Option.some.inj same).symm
  · rw [isAttempt.nextKey_eq has lacks retried] at same
    obtain ⟨_, number⟩ := RetryEvent.nextKey_eq_iff.1 (Option.some.inj same)
    rw [number] at isLater
    exact UInt32.lt_irrefl later isLater

theorem keys_apart {next : Request} {m : Nat} (isNext : next.IsAttemptOf r budget m)
    (before : n < m) : request.idempotencyKey ≠ next.idempotencyKey := by
  have attempt := isAttempt.attempt
  have isLater : request.attempt < next.attempt := by
    rw [UInt32.lt_iff_toNat_lt, isNext.attempt]
    omega
  rw [isNext.nextKey_eq has lacks (by omega)]
  exact isAttempt.key_ne has lacks isLater

end Request.IsAttemptOf

/-- One execution of a lineage, from the stores before it to the stores after it. -/
structure Link where
  request : Request
  before : Stores
  calls : List Services.Exchange
  rest : Program Services (Except PublishError Execution)
  after : Stores

namespace Link

def deeds (link : Link) : List Deed := link.calls.filterMap Deed.of?

/-- What the execution handed to the transport. -/
def sent (link : Link) : List Envelope := Deed.envelopes link.deeds

/-- What publishers came to. -/
def results (link : Link) : List PublishResult :=
  link.deeds.filterMap fun
    | .asked result => result
    | _ => none

/-- The request is executed to its end, alone and on records that work. The results that publishers
come to are complete. -/
structure Works (engine : Engine) (link : Link) : Prop where
  plays : (engine.execute link.request).run.Plays Stores.Serves link.before link.calls link.rest
    link.after
  isOver : link.rest.IsOver
  complete : ∀ result ∈ link.results, result.IsComplete

def Asks (link : Link) (event : RetryEvent) : Prop :=
  ∃ job, Announcement.envelope job (.retryRequested event) ∈ link.sent

/-- The execution made this row for its request, and brought it to its end, unless a time left the
calendar on the way. It asks for a retry of this row only. -/
structure Founds (engine : Engine) (link : Link) (row : Job) : Prop where
  grown : link.before.Grown row link.after
  made : row.MadeFor engine.retryBudget link.request
  ended : link.rest = .overflow ∨
    ∃ outcome, link.rest = .done (.ok ⟨row, outcome⟩) ∧ outcome ≠ .alreadyCompleted ∧
      row.isTerminal = true
  continued : ∀ envelope ∈ link.sent, envelope.eventType = "publish.retry_requested.v1" →
    ∃ event : RetryEvent, envelope = Announcement.envelope row (.retryRequested event) ∧
      event.Continues row ∧ row.retryCount < row.maxRetries

variable {engine : Engine} {link : Link}

theorem Works.founds (works : link.Works engine) (valid : link.request.validate = .ok ())
    (free : link.before.Free link.request) : ∃ row, link.Founds engine row := by
  have course := (Engine.execute_undisturbed valid free).does.goes works.plays.goes
  rw [List.nil_append] at course
  have complete : ∀ result, .asked (some result) ∈ link.deeds → result.IsComplete :=
    fun result asked => works.complete result (List.mem_filterMap.2 ⟨_, asked, rfl⟩)
  rcases course complete with underway | ⟨row, makes, stand⟩
  · exact absurd underway (Program.stand_ne_underway works.isOver)
  · refine ⟨row, makes.grown, makes.made, ?_, makes.continued⟩
    rcases stand with overflown | ⟨outcome, ended, is⟩
    · exact .inl (Program.stand_eq_overflown.1 overflown)
    · exact .inr ⟨outcome, Program.stand_eq_ended.1 ended, is⟩

theorem Founds.continues {row : Job} {event : RetryEvent} (founds : link.Founds engine row)
    (asks : link.Asks event) : event.Continues row ∧ row.retryCount < row.maxRetries := by
  obtain ⟨job, sent⟩ := asks
  obtain ⟨more, same, continues, left⟩ := founds.continued _ sent rfl
  obtain ⟨_, rfl⟩ := Announcement.envelope_retry_injective same
  exact ⟨continues, left⟩

end Link

/-- An attempt that can be made a job of its own: no row has its key, nor that of a later
attempt. -/
structure Request.IsReady (request r : Request) (budget : UInt32) (n : Nat) (s : Stores) :
    Prop where
  valid : request.validate = .ok ()
  isAttempt : request.IsAttemptOf r budget n
  within : n ≤ (r.maxRetries.getD budget).toNat - r.attempt.toNat
  free : s.Free request
  ahead : ∀ key, r.idempotencyKey = some key → ∀ later : UInt32, request.attempt < later →
    ∀ row ∈ s.jobs.rows, row.idempotencyKey ≠ some (RetryEvent.nextKey key later)

section

variable {engine : Engine} {r : Request} {s : Stores}

/-- A request is ready to be executed first if no row has a key that begins with its key. -/
theorem Request.IsReady.first (valid : r.validate = .ok ())
    (plain : ∀ key, r.idempotencyKey = some key → Text.Lacks attemptMark.toList key.toList)
    (unused : ∀ key, r.idempotencyKey = some key → ∀ row ∈ s.jobs.rows,
      ∀ other, row.idempotencyKey = some other → ¬ key.toList <+: other.toList)
    (budget : UInt32) : r.IsReady r budget 0 s where
  valid := valid
  isAttempt := .first r budget
  within := Nat.zero_le _
  free key has row member same := unused key has row member key same (List.prefix_refl _)
  ahead key has later _ row member same := by
    refine unused key has row member _ same ?_
    rw [RetryEvent.nextKey_of_lacks (plain key has)]
    simp [List.prefix_append]

/-- The retry that an execution asks for is ready when the execution is over. -/
theorem Request.IsReady.next {link : Link} {row : Job} {event : RetryEvent} {n : Nat}
    (ready : link.request.IsReady r engine.retryBudget n link.before)
    (plain : ∀ key, r.idempotencyKey = some key → Text.Lacks attemptMark.toList key.toList)
    (founds : link.Founds engine row) (asks : link.Asks event) (id : EventId)
    (scheduledAt : Timestamp) :
    (event.nextRequest id scheduledAt).IsReady r engine.retryBudget (n + 1) link.after := by
  obtain ⟨continues, left⟩ := founds.continues asks
  obtain ⟨isAttempt, below⟩ := continues.isAttemptOf left founds.made ready.isAttempt plain id
    scheduledAt
  have one : event.nextAttempt.toNat = link.request.attempt.toNat + 1 := by
    rw [continues.nextAttempt_toNat left, founds.made.retryCount]
  have isNext : link.request.attempt < event.nextAttempt := by
    rw [UInt32.lt_iff_toNat_lt]
    omega
  have ahead : ∀ key, r.idempotencyKey = some key → ∀ later : UInt32, link.request.attempt < later →
      ∀ old ∈ link.after.jobs.rows, old.idempotencyKey ≠ some (RetryEvent.nextKey key later) := by
    intro key has later isLater old member
    rw [founds.grown.rows] at member
    rcases List.mem_append.1 member with old | new
    · exact ready.ahead key has later isLater _ old
    · obtain rfl := List.mem_singleton.1 new
      rw [founds.made.idempotencyKey]
      exact ready.isAttempt.key_ne has (plain key has) isLater
  refine ⟨continues.nextRequest_valid (founds.made.isFresh ready.valid) id scheduledAt, isAttempt,
    by omega, ?_, ?_⟩
  · intro nextKey asked
    obtain ⟨key, has⟩ : ∃ key, r.idempotencyKey = some key := by
      rw [isAttempt.key] at asked
      simpa [Option.isSome_iff_exists] using congrArg Option.isSome asked
    rw [isAttempt.nextKey_eq has (plain key has) (Nat.add_one_ne_zero n)] at asked
    cases asked
    exact ahead key has _ isNext
  · intro key has later isLater
    exact ahead key has later (UInt32.lt_trans isNext isLater)

/-- Carried out one after the other: a request, and as long as a retry is asked for, its next
attempt. The last execution is kept apart from the earlier ones. -/
inductive Lineage (engine : Engine) (r : Request) (s : Stores) : List Link → Link → Prop
  | first {link : Link} : link.request = r → link.before = s → link.Works engine →
      Lineage engine r s [] link
  | next {earlier : List Link} {last link : Link} {event : RetryEvent} {id : EventId}
      {scheduledAt : Timestamp} : Lineage engine r s earlier last → last.Asks event →
      link.request = event.nextRequest id scheduledAt → link.before = last.after →
      link.Works engine → Lineage engine r s (earlier ++ [last]) link

theorem Lineage.isReady {earlier : List Link} {last : Link}
    (lineage : Lineage engine r s earlier last)
    (plain : ∀ key, r.idempotencyKey = some key → Text.Lacks attemptMark.toList key.toList)
    (ready : r.IsReady r engine.retryBudget 0 s) :
    last.request.IsReady r engine.retryBudget earlier.length last.before ∧ last.Works engine := by
  induction lineage with
  | first same begun works =>
    subst same begun
    exact ⟨ready, works⟩
  | @next earlier last link event id scheduledAt _ asks request begun works ih =>
    obtain ⟨ready, worked⟩ := ih
    obtain ⟨row, founds⟩ := worked.founds ready.valid ready.free
    rw [List.length_append, request, begun]
    exact ⟨ready.next plain founds asks id scheduledAt, works⟩

/-- Each execution of a lineage was the last one once. -/
theorem Lineage.of_getElem? {earlier : List Link} {last link : Link} {n : Nat}
    (lineage : Lineage engine r s earlier last) (here : (earlier ++ [last])[n]? = some link) :
    ∃ before, before.length = n ∧ Lineage engine r s before link := by
  induction lineage generalizing link n with
  | first same begun works =>
    cases n with
    | zero =>
      cases here
      exact ⟨[], rfl, .first same begun works⟩
    | succ n => cases here
  | @next earlier last new event id scheduledAt lineage asks request begun works ih =>
    by_cases old : n < (earlier ++ [last]).length
    · rw [List.getElem?_append_left old] at here
      exact ih here
    · rw [List.getElem?_append_right (by omega)] at here
      obtain ⟨bound, same⟩ := List.getElem?_eq_some_iff.1 here
      obtain rfl : new = link := by simpa using same
      rw [List.length_singleton] at bound
      exact ⟨earlier ++ [last], by omega, .next lineage asks request begun works⟩

end

namespace Stores

/-- The rows of `s` are the first ones of `t`, and for the same work. -/
def Extends (s t : Stores) : Prop := s.jobs.rows.map Job.work <+: t.jobs.rows.map Job.work

/-- A row that is the first one with its key stays the first one. -/
theorem Grown.findByKey? {s t u : Stores} {row : Job} (grown : s.Grown row t) {key : String}
    (has : row.idempotencyKey = some key)
    (unused : ∀ old ∈ s.jobs.rows, old.idempotencyKey ≠ some key) (later : t.Extends u) :
    ∃ job, u.jobs.findByKey? key = some job ∧ job.work = row.work := by
  obtain ⟨more, parts⟩ := later
  have before : (s.jobs.rows.map Job.work).find? (fun job => job.idempotencyKey == some key) =
      none := by
    simpa using unused
  have found := u.jobs.map_work_findByKey? key
  rw [← parts, grown.rows, List.map_append, List.find?_append, List.find?_append, before] at found
  exact Option.map_eq_some_iff.1 (found.trans (by simp [has]))

end Stores

/-- Whoever submits the request for the retry again, with any other identifier and time, comes to
this row. If the row is finished nothing is done. -/
def Link.Absorbs (engine : Engine) (link : Link) (event : RetryEvent) (row : Job) : Prop :=
  ∀ id scheduledAt u calls rest v, link.after.Extends u →
    (engine.execute (event.nextRequest id scheduledAt)).run.Plays Stores.Serves u calls rest v →
    rest.IsOver → ∃ job ∈ u.jobs.rows, job.id = row.id ∧
      engine.Resolves (event.nextRequest id scheduledAt) calls row.id ∧
      (job.isTerminal = true → rest = .done (.ok ⟨job, .alreadyCompleted⟩) ∧ v = u)

theorem Link.Founds.absorbs {engine : Engine} {link : Link} {row : Job} {event : RetryEvent}
    (founds : link.Founds engine row) (valid : link.request.validate = .ok ())
    (free : link.before.Free link.request) {id : EventId} {scheduledAt : Timestamp}
    (submitted : link.request = event.nextRequest id scheduledAt) {key : String}
    (has : link.request.idempotencyKey = some key) : link.Absorbs engine event row := by
  intro otherId otherTime u calls rest v later plays isOver
  have rowHas : row.idempotencyKey = some key := by
    rw [founds.made.idempotencyKey, has]
  obtain ⟨job, found, same⟩ := founds.grown.findByKey? rowHas (free key has) later
  obtain ⟨jobId, now, made⟩ := founds.made.of_work_eq same
  have fits := Job.matchesRequest_of_work_eq made
  rw [submitted] at valid has fits
  -- nothing here looks at the identifier and the time of the request
  let again := event.nextRequest otherId otherTime
  have validAgain : again.validate = .ok () := valid
  have hasAgain : again.idempotencyKey = some key := has
  have fitsAgain : job.matchesRequest again = true := fits
  obtain ⟨first, second, rfl, opened, goesOn⟩ :=
    Engine.comes_back validAgain hasAgain found fitsAgain plays isOver
  have sameId := Job.id_eq_of_work_eq same
  refine ⟨job, List.mem_of_find?_eq_some found, sameId,
    ⟨first, second, job, rfl, sameId, opened⟩, fun finished => ?_⟩
  simp only [Engine.carryOut, finished, if_true] at goesOn
  cases goesOn
  exact ⟨rfl, rfl⟩

namespace Rehearsal

/-- The execution of a request on a stage. -/
def Stage.link (engine : Engine) (request : Request) (stage : Stage) : Link where
  request := request
  before := stage.stores
  calls := (engine.execute request).run.transcript Stage.perform stage
  rest := Program.ended ((engine.execute request).run.run Stage.perform stage).1
  after := ((engine.execute request).run.run Stage.perform stage).2.stores

theorem Stage.link_works {stage : Stage} (honest : stage.Honest) {engine : Engine}
    {request : Request}
    (fares : (engine.execute request).run.passes Stage.perform Stage.fares stage = true)
    (complete : ∀ result ∈ (stage.link engine request).results, result.IsComplete) :
    (stage.link engine request).Works engine where
  plays := (Program.plays_run_of_passes Stage.perform_serves _ honest fares).1
  isOver := Program.ended_isOver _
  complete := complete

namespace Cast

def refused : Link := (stage [] busy).link engine request

def retried : Link := (delivered [] busy).link engine retry

theorem refused_works : refused.Works engine := by
  refine Stage.link_works (stage_honest [] busy) (by decide +kernel) ?_
  have results : ((stage [] busy).link engine request).results = [.rateLimited "slow down"] := by
    decide +kernel
  intro result member
  rw [results, List.mem_singleton] at member
  exact .inr ⟨_, _, member⟩

theorem retried_works : retried.Works engine := by
  have honest : (delivered [] busy).Honest :=
    (Program.plays_run Stage.perform_imitates (engine.execute request).run (stage_honest [] busy)).2
  refine Stage.link_works honest (by decide +kernel) ?_
  have results : ((delivered [] busy).link engine retry).results =
      [.published "video-1" "https://video.test/1"] := by
    decide +kernel
  intro result member
  rw [results, List.mem_singleton] at member
  exact .inl ⟨_, _, member⟩

/-- Whatever event asks for the retry of the first request, the next request is the same. -/
theorem nextRequest_eq {event : RetryEvent} {row : Job} (continues : event.Continues row)
    (made : row.MadeFor engine.retryBudget request) :
    event.nextRequest ⟨"event-2"⟩ morning = retry := by
  obtain ⟨user, account, content, platform, postType, maxRetries, count, key⟩ := made.fields
  have lacks : Text.Lacks attemptMark.toList "key-1".toList := rfl
  have nextKey : RetryEvent.nextKey "key-1" 1 = "key-1#attempt-1" := by
    rw [RetryEvent.nextKey_of_lacks lacks, Text.decimal, if_pos (by decide)]
    decide
  have keys : request.idempotencyKey.map (RetryEvent.nextKey · (request.attempt + 1)) =
      some "key-1#attempt-1" := congrArg some nextKey
  have trimmed : Text.trim request.platform = "YOUTUBE" := by decide +kernel
  rw [RetryEvent.nextRequest, continues.userId, continues.accountId, continues.contentId,
    continues.platform, continues.postType, continues.maxRetries, continues.nextAttempt,
    continues.idempotencyKey, user, account, content, platform, postType, maxRetries, count, key,
    keys, trimmed]
  rfl

end Cast

end Rehearsal

/-- A lineage ends, and every attempt in it is a job of its own. Take any valid request without a
key, or with one that has no attempt mark, and any stores in which no row has a key that begins with
it. Let the request and then the retries be executed one after the other on records that work, with
any answers of the clock, the accounts, the token endpoints and the publishers. There are at most as
many retries as the budget leaves. The request of each execution is valid, is for the same thing as
the first one, and has the next number and a key of its own; it makes a row of its own, which comes
to its end unless a time leaves the calendar. When the same retry is submitted again it comes to the
same row. -/
theorem retry_lineage {engine : Engine} {r : Request} {s : Stores} {earlier : List Link}
    {last : Link} (lineage : Lineage engine r s earlier last) (valid : r.validate = .ok ())
    (plain : ∀ key, r.idempotencyKey = some key → ¬ attemptMark.toList <:+: key.toList)
    (unused : ∀ key, r.idempotencyKey = some key → ∀ row ∈ s.jobs.rows,
      ∀ other, row.idempotencyKey = some other → ¬ key.toList <+: other.toList) :
    (earlier ++ [last]).length ≤
        (r.maxRetries.getD engine.retryBudget).toNat - r.attempt.toNat + 1 ∧
      (∀ (n : Nat) (link : Link), (earlier ++ [last])[n]? = some link →
        link.request.validate = .ok () ∧ link.request.IsAttemptOf r engine.retryBudget n ∧
        ∃ row, link.Founds engine row ∧ ∀ (event : RetryEvent) id scheduledAt,
          link.request = event.nextRequest id scheduledAt → event.idempotencyKey.isSome = true →
            link.Absorbs engine event row) ∧
      (r.idempotencyKey.isSome = true →
        ((earlier ++ [last]).map (·.request.idempotencyKey)).Nodup) := by
  have lacks : ∀ key, r.idempotencyKey = some key → Text.Lacks attemptMark.toList key.toList :=
    fun key has => (Text.lacks_iff (by decide)).2 (plain key has)
  have begun := Request.IsReady.first valid lacks unused engine.retryBudget
  have ready : ∀ {n : Nat} {link : Link}, (earlier ++ [last])[n]? = some link →
      link.request.IsReady r engine.retryBudget n link.before ∧ link.Works engine := by
    intro n link here
    obtain ⟨before, rfl, upTo⟩ := lineage.of_getElem? here
    exact upTo.isReady lacks begun
  refine ⟨?_, fun n link here => ?_, fun keyed => ?_⟩
  · have within := (lineage.isReady lacks begun).1.within
    rw [List.length_append, List.length_singleton]
    omega
  · obtain ⟨isReady, works⟩ := ready here
    obtain ⟨row, founds⟩ := works.founds isReady.valid isReady.free
    refine ⟨isReady.valid, isReady.isAttempt, row, founds, fun event id time submitted keyed => ?_⟩
    obtain ⟨key, has⟩ : ∃ key, link.request.idempotencyKey = some key := by
      rw [← Option.isSome_iff_exists, submitted]
      simpa [RetryEvent.nextRequest] using keyed
    exact founds.absorbs isReady.valid isReady.free submitted has
  · obtain ⟨key, has⟩ := Option.isSome_iff_exists.1 keyed
    rw [List.nodup_iff_getElem?_ne_getElem?]
    intro i j before bound
    rw [List.length_map] at bound
    have here := List.getElem?_eq_getElem (Nat.lt_trans before bound)
    have there := List.getElem?_eq_getElem bound
    rw [List.getElem?_map, List.getElem?_map, here, there]
    have apart := (ready here).1.isAttempt.keys_apart has (lacks key has) (ready there).1.isAttempt
      before
    simpa using apart

open Rehearsal in
/-- A request is refused for a rate limit, and its retry is published. -/
theorem retry_lineage_twice : ∃ first second, Lineage Cast.engine Cast.request {} [first] second ∧
    second.request.idempotencyKey = some "key-1#attempt-1" ∧
    second.request.IsAttemptOf Cast.request Cast.engine.retryBudget 1 ∧
    ∃ row, second.Founds Cast.engine row := by
  have valid : Cast.request.validate = .ok () := by decide
  have begun : Lineage Cast.engine Cast.request {} [] Cast.refused :=
    .first rfl rfl Cast.refused_works
  have free : Cast.refused.before.Free Cast.request := fun key _ row member => by cases member
  obtain ⟨row, founds⟩ := Cast.refused_works.founds valid free
  obtain ⟨envelope, sent, type⟩ : ∃ envelope ∈ Cast.refused.sent,
      envelope.eventType = "publish.retry_requested.v1" := by
    decide +kernel
  obtain ⟨event, rfl, continues, _⟩ := founds.continued envelope sent type
  have next : Cast.retried.request = event.nextRequest ⟨"event-2"⟩ Cast.morning :=
    (Cast.nextRequest_eq continues founds.made).symm
  have lineage := begun.next ⟨row, sent⟩ next rfl Cast.retried_works
  obtain ⟨_, each, _⟩ := retry_lineage lineage valid (by decide) (by simp)
  obtain ⟨_, isAttempt, more, foundsToo, _⟩ := each 1 Cast.retried rfl
  exact ⟨Cast.refused, Cast.retried, lineage, rfl, isAttempt, more, foundsToo⟩

end Syndication
