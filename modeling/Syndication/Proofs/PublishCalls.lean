import Syndication.Proofs.Registries
import Syndication.Proofs.TakenPosts
import Syndication.Store.Accounts

namespace Syndication

namespace Program

variable {I : Interface} {α β σ : Type}

theorem Goes.of_bind {scene : Scene I σ} {p : Program I α} {f : α → Program I β}
    {log : List I.Exchange} {q : Program I β} {s t : σ}
    (goes : (p.bind f).Goes scene s log q t) :
    (∃ p', p.Goes scene s log p' t ∧ q = p'.bind f) ∨
      ∃ value first second u, log = first ++ second ∧ p.Goes scene s first (.done value) u ∧
        (f value).Goes scene u second q t := by
  induction p generalizing s log with
  | done value => exact .inr ⟨value, [], log, s, rfl, .stop _ _, goes⟩
  | overflow =>
    cases goes with
    | stop => exact .inl ⟨.overflow, .stop _ _, rfl⟩
  | call c next ih =>
    cases goes with
    | stop => exact .inl ⟨.call c next, .stop _ _, rfl⟩
    | @call _ _ a log _ _ mid now _ moved answered rest =>
      rcases ih a rest with ⟨p', begun, same⟩ | ⟨value, first, second, u, parts, begun, ended⟩
      · exact .inl ⟨p', .call moved answered begun, same⟩
      · refine .inr ⟨value, ⟨c, a⟩ :: first, second, u, ?_, .call moved answered begun, ended⟩
        rw [parts, List.cons_append]

/-- A program that keeps its contract has kept it wherever it has come to. -/
theorem Meets.goes {D : Discipline I σ} {post : α → σ → Prop} {p q : Program I α}
    {log : List I.Exchange} {s t : σ} (meets : p.Meets D post s) (sound : D.sound s)
    (goes : p.Goes D.scene s log q t) : D.sound t ∧ D.rely s t ∧ q.Meets D post t := by
  induction goes with
  | stop => exact ⟨sound, D.refl _, meets⟩
  | call moved answered _ ih =>
    obtain ⟨permitted, goesOn⟩ := meets _ moved.1 moved.2
    obtain ⟨soundLast, later, rest⟩ := ih (goesOn _ _ answered) (D.keeps moved.2 permitted answered)
    exact ⟨soundLast, D.trans (D.trans moved.1 (D.moves moved.2 permitted answered)) later, rest⟩

end Program

namespace Action

variable {I : Interface} {α β σ : Type} {x : Action I α} {f : α → Action I β}
  {log : List I.Exchange}

/-- A call that the first of two actions does not make is made by the second one, after the first
one came to a value. -/
theorem goes_bind_of_mem {scene : Scene I σ} {rest : Program I (Except PublishError β)} {s t : σ}
    (goes : (x >>= f).run.Goes scene s log rest t) {allowed : I.Call → Prop}
    (only : x.CallsOnly allowed) {exchange : I.Exchange} (member : exchange ∈ log)
    (other : ¬ allowed exchange.1) : ∃ value first second u, log = first ++ second ∧
      x.run.Goes scene s first (.done (.ok value)) u ∧ (f value).run.Goes scene u second rest t ∧
      exchange ∈ second := by
  rw [run_bind] at goes
  rcases goes.of_bind with ⟨_, begun, _⟩ | ⟨outcome, first, second, u, rfl, begun, goesOn⟩
  · exact absurd ((Program.Yields.follows only.meets begun.follows).1 exchange member) other
  · have inSecond : exchange ∈ second := by
      rcases List.mem_append.1 member with before | after
      · exact absurd ((Program.Yields.follows only.meets begun.follows).1 exchange before) other
      · exact after
    cases outcome with
    | ok value => exact ⟨value, first, second, u, rfl, begun, goesOn, inSecond⟩
    | error error =>
      cases goesOn
      cases inSecond

theorem Ensures.goes {D : Discipline I σ} {post : α → σ → Prop} {value : α} {s t : σ}
    (ensures : x.Ensures D post s) (sound : D.sound s)
    (goes : x.run.Goes D.scene s log (.done (.ok value)) t) :
    post value t ∧ D.sound t ∧ D.rely s t := by
  obtain ⟨soundT, later, reached⟩ := Program.Meets.goes ensures.meets sound goes
  exact ⟨reached value rfl, soundT, later⟩

theorem goes_ofExcept {scene : Scene I σ} {outcome : Except PublishError α} {value : α} {s t : σ}
    (goes : (Action.ofExcept outcome : Action I α).run.Goes scene s log (.done (.ok value)) t) :
    log = [] ∧ outcome = .ok value := by
  cases goes
  exact ⟨rfl, rfl⟩

theorem follows_always {p : Program I α} {q : Program I (Except PublishError α)}
    (follows : (Action.always p).run.Follows log q) : ∃ q', p.Follows log q' := by
  rcases follows.of_bind with ⟨p', begun, _⟩ | ⟨value, first, second, rfl, begun, ended⟩
  · exact ⟨p', begun⟩
  · cases ended
    rw [List.append_nil]
    exact ⟨_, begun⟩

end Action

theorem Services.goes_getAccount {σ : Type} {scene : Scene Services σ} {id : AccountId}
    {log : List Services.Exchange} {found : Option Account} {s t : σ}
    (goes : (Action.persisted (Services.getAccount id)).run.Goes scene s log
      (.done (.ok found)) t) : log = [⟨.getAccount id, .ok found⟩] := by
  cases goes with
  | @call _ _ reply _ _ _ _ _ _ _ _ ended =>
    cases reply with
    | ok read =>
      cases ended
      rfl
    | error fault => cases ended

namespace Ledger

open Syndication.Action

/-- Whatever the records answer, a job is opened only if it fits the request. -/
theorem openJob_fits (budget : UInt32) (request : Request) :
    (openJob budget request).toServices.Ensures (.free fun _ => True)
      (fun job _ => job.matchesRequest request = true) () := by
  suffices fits : (openJob budget request).Ensures (.free fun _ => True)
      (fun job _ => job.matchesRequest request = true) () from
    ⟨Program.Yields.through fits.meets fun _ _ => trivial⟩
  have reuse_fits (existing : Job) (key : String) :
      (Action.ofExcept (I := Records) (reuse existing request key)).Ensures (.free fun _ => True)
        (fun job _ => job.matchesRequest request = true) () := by
    refine .ofExcept fun job reused => ?_
    obtain ⟨rfl, fits⟩ := reuse_eq_ok reused
    exact fits
  have insertNew_fits : (insertNew budget request).Ensures (.free fun _ => True)
      (fun job _ => job.matchesRequest request = true) () := by
    unfold insertNew
    refine Ensures.bind (CallsOnly.anything _) trivial fun id _ _ _ _ => ?_
    refine Ensures.bind (CallsOnly.anything _) trivial fun now _ _ _ _ => ?_
    refine Ensures.bind (CallsOnly.anything _) trivial fun answer _ _ _ _ => ?_
    match answer, request.idempotencyKey with
    | .ok (), _ => exact .pure (Job.matchesRequest_of_work_eq rfl)
    | .error fault, none => exact .throw
    | .error fault, some key =>
      simp only
      split
      · unfold yieldTo
        refine Ensures.bind (CallsOnly.anything _) trivial fun found _ _ _ _ => ?_
        cases found with
        | some winner => exact reuse_fits winner key
        | none => exact .throw
      · exact .throw
  unfold openJob
  refine Ensures.bind (CallsOnly.anything _) trivial fun _ _ _ _ _ => ?_
  split
  · exact insertNew_fits
  · rename_i key _
    refine Ensures.bind (CallsOnly.anything _) trivial fun found _ _ _ _ => ?_
    cases found with
    | some existing => exact reuse_fits existing key
    | none => exact insertNew_fits

end Ledger

namespace Registry

variable {S : Type} {platformOf : S → Platform} {registry : Registry S} {key : String}

/-- The registry with each publisher known by its platform. -/
def byPlatform (registry : Registry S) (platformOf : S → Platform) : Registry Platform where
  entries := registry.entries.map fun entry => (entry.1, platformOf entry.2)
  distinct := by simpa [Function.comp_def] using registry.distinct

theorem of_resolve_byPlatform {platform : Platform}
    (found : (registry.byPlatform platformOf).resolve key = .ok platform) :
    ∃ publisher, registry.resolve key = .ok publisher ∧ platformOf publisher = platform := by
  obtain ⟨other, named, entry⟩ := resolve_eq_ok_iff.1 found
  obtain ⟨⟨_, publisher⟩, member, ⟨⟩⟩ := List.mem_map.1 entry
  exact ⟨publisher, resolve_eq_ok_iff.2 ⟨_, named, member⟩, rfl⟩

end Registry

namespace Engine

open Syndication.Action Program

variable {engine : Engine} {job : Job} {request : Request} {log : List Services.Exchange}
  {strategy : Platform} {context : PublishContext} {answer : Except PlatformError PublishResult}

/-- An attempt that calls a publisher first reads the account of the job, then gets the token of
this account, and has the publisher from the registry. -/
theorem attempt_called {rest : Program Services (Except PublishError PublishResult)}
    (follows : (engine.attempt job request).run.Follows log rest)
    (asked : ⟨.publish strategy context, answer⟩ ∈ log) : ∃ tokens,
      log = ⟨.getAccount job.accountId, .ok (some context.account)⟩ ::
        (tokens ++ [⟨.publish strategy context, answer⟩]) ∧
      context.request = request ∧ checkPlatform job context.account = .ok () ∧
      (engine.renewal.validToken context.account).run.Follows tokens
        (.done (.ok context.accessToken)) ∧
      engine.registry.resolve job.platform = .ok strategy := by
  have elsewhere : ¬ (ServiceCall.publish strategy context).IsPreparing := id
  have goes : (engine.attempt job request).run.Goes Scene.any.withServices () log rest () :=
    follows.goes trivial Scene.any_around
  unfold attempt at goes
  obtain ⟨found, reading, log, _, rfl, reads, goesOn, afterRead⟩ :=
    goes_bind_of_mem goes (.persisted (Yields.ask trivial)) asked elsewhere
  obtain rfl := Services.goes_getAccount reads
  cases found with
  | none =>
    cases goesOn
    cases afterRead
  | some account =>
    obtain ⟨_, checking, log, _, rfl, checks, gets, afterCheck⟩ :=
      goes_bind_of_mem goesOn .ofExcept afterRead elsewhere
    obtain ⟨rfl, fits⟩ := goes_ofExcept checks
    obtain ⟨token, tokens, log, _, rfl, got, resolves, afterToken⟩ :=
      goes_bind_of_mem gets (engine.renewal.validToken_preparing account) afterCheck elsewhere
    obtain ⟨publisher, resolving, log, _, rfl, finds, publishes, last⟩ :=
      goes_bind_of_mem resolves .ofExcept afterToken elsewhere
    obtain ⟨rfl, resolved⟩ := goes_ofExcept finds
    -- the call of the publisher is the last one
    cases publishes with
    | stop => cases last
    | @call _ _ replied _ _ _ _ _ _ _ _ ended =>
      cases replied with
      | ok result =>
        cases ended
        cases List.mem_singleton.1 last
        exact ⟨tokens, rfl, rfl, fits, got.follows, resolved⟩
      | error error =>
        cases ended
        cases List.mem_singleton.1 last
        exact ⟨tokens, rfl, rfl, fits, got.follows, resolved⟩

/-- When a publisher is called in an attempt or after it, it is called in the attempt. -/
theorem called_in_attempt {rest : Program Services (Except PublishError Execution)}
    (follows : (Action.always (engine.attempt job request).run >>= complete job).run.Follows log
      rest) (asked : ⟨.publish strategy context, answer⟩ ∈ log) : ∃ attempting after outcome,
      log = attempting ++ after ∧ ⟨.publish strategy context, answer⟩ ∈ attempting ∧
      (engine.attempt job request).run.Follows attempting outcome := by
  rw [Action.run_bind] at follows
  rcases follows.of_bind with ⟨_, begun, _⟩ | ⟨outcome, attempting, after, rfl, begun, completes⟩
  · obtain ⟨outcome, attempts⟩ := follows_always begun
    exact ⟨log, [], outcome, (List.append_nil log).symm, asked, attempts⟩
  · obtain ⟨ended, attempts⟩ := follows_always begun
    refine ⟨attempting, after, ended, rfl, (List.mem_append.1 asked).resolve_right ?_, attempts⟩
    intro later
    cases outcome with
    | error error =>
      cases completes
      cases later
    | ok outcome =>
      exact (Yields.follows (complete_onRecords job outcome).meets completes).1 _ later

/-- What an execution did before it called a publisher: it opened a job that fits the request, told
the start of this job, and made an attempt at it. -/
theorem execute_called {anyRead : Prop} {s t : Stores} (sound : s.Sound)
    {rest : Program Services (Except PublishError Execution)}
    (goes : (engine.execute request).run.Goes (Discipline.publishing anyRead).scene s log rest t)
    (asked : ⟨.publish strategy context, answer⟩ ∈ log) :
    ∃ job start before attempting after outcome, log = before ++ (attempting ++ after) ∧
      t.HasRow job ∧ job.matchesRequest request = true ∧ start.jobId = job.id ∧
      .announced job (.started start) true ∈ before.filterMap Deed.of? ∧
      ⟨.publish strategy context, answer⟩ ∈ attempting ∧
      (engine.attempt job request).run.Follows attempting outcome := by
  have elsewhere : ¬ (ServiceCall.publish strategy context).IsOnRecords := id
  unfold execute at goes
  obtain ⟨opened, opening, log, u, rfl, opens, goesOn, afterOpening⟩ :=
    goes_bind_of_mem goes (toServices_onRecords _) asked elsewhere
  obtain ⟨⟨found, _⟩, soundU, _⟩ :=
    (Ledger.openJob_ensures sound _ request).toServices.goes sound opens
  have fits := (Yields.follows (Ledger.openJob_fits _ request).meets opens.follows).2 opened rfl
  split at goesOn
  · cases goesOn
    cases afterOpening
  have holds : u.Holds opened := Stores.holds_of_find? found
  obtain ⟨job, starting, log, v, rfl, starts, goesOn, afterStart⟩ :=
    goes_bind_of_mem goesOn (toServices_onRecords _) afterOpening elsewhere
  obtain ⟨⟨sameId, held⟩, soundV, later⟩ :=
    (Ledger.start_ensures soundU holds).toServices.goes soundU starts
  have matching : job.matchesRequest request = true := by
    have same := (holds.later later).work_eq held sameId
    rw [← Job.work_matchesRequest, same, Job.work_matchesRequest]
    exact fits
  split at goesOn
  · cases goesOn
    cases afterStart
  obtain ⟨_, telling, log, w, rfl, tells, goesOn, afterTelling⟩ :=
    goes_bind_of_mem goesOn (toServices_onRecords _) afterStart elsewhere
  have announces : (Announcement.started job).Does (Discipline.bookkeeping anyRead).scene
      Deed.ofRecord? (Tells job (fun event => ∃ start, event = .started start) []) [] v :=
    Announcement.started_tells job
  obtain ⟨event, forJob, ⟨start, rfl⟩, told⟩ := announces.toServices.does.goes tells
  rw [List.nil_append, List.nil_append] at told
  have announced : .announced job (.started start) true ∈
      (opening ++ (starting ++ telling)).filterMap Deed.of? := by
    simp only [List.filterMap_append, List.mem_append, told]
    exact .inr (.inr (List.mem_singleton_self _))
  obtain ⟨_, soundW, laterW⟩ :=
    (Announcement.started_ensures soundV job).toServices.goes soundV tells
  have ensures : (Action.always (engine.attempt job request).run >>= complete job).Ensures
      (.publishing anyRead) (fun _ _ => True) w := by
    have attempt := Yields.meets (engine.attempt_yields job request).meets (.publishing anyRead)
      (fun _ outside _ => outside.permitted _) w
    refine (Ensures.always attempt).bind soundW fun outcome x soundX laterX _ => ?_
    exact (complete_ensures soundX ((held.later laterW).later laterX) outcome).weaken
      fun _ _ _ => trivial
  obtain ⟨_, laterT, _⟩ := Meets.goes ensures.meets soundW goesOn
  obtain ⟨attempting, after, outcome, rfl, inAttempt, attempts⟩ :=
    called_in_attempt goesOn.follows afterTelling
  exact ⟨job, start, opening ++ (starting ++ telling), attempting, after, outcome, by simp,
    (held.1.later laterW).later laterT, matching, forJob, announced, inAttempt, attempts⟩

theorem eq_platform_of_checkPlatform {account : Account} {platform : Platform}
    (fits : checkPlatform job account = .ok ())
    (named : Platform.ofKey job.platform = .ok platform) : platform = account.platform := by
  simp only [checkPlatform, named] at fits
  split at fits
  · assumption
  · cases fits

end Engine

/-- The first of two actions goes on as it does alone when the second one calls nothing. -/
theorem Action.goes_of_pure {I : Interface} {α β σ : Type} {scene : Scene I σ} {x : Action I α}
    {f : α → β} {log : List I.Exchange} {rest : Program I (Except PublishError β)} {s t : σ}
    (goes : (x >>= fun value => pure (f value)).run.Goes scene s log rest t) :
    ∃ rest, x.run.Goes scene s log rest t := by
  rw [Action.run_bind] at goes
  rcases goes.of_bind with ⟨p, begun, _⟩ | ⟨outcome, first, second, u, rfl, begun, ended⟩
  · exact ⟨p, begun⟩
  · cases outcome <;>
      · cases ended
        rw [List.append_nil]
        exact ⟨_, begun⟩

/-- Reads of accounts are answered from some store of accounts. It may be another one each time. -/
def AccountStore.Answered : Services.Exchange → Prop
  | ⟨.getAccount id, .ok found⟩ => ∃ store : AccountStore, found = store.find? id
  | _ => True

theorem Job.matchesRequest_eq {job : Job} {request : Request}
    (fits : job.matchesRequest request = true) : job.userId = request.userId ∧
      job.accountId = request.accountId ∧ job.contentId = request.contentId ∧
      job.postType = request.effectivePostType := by
  simp only [matchesRequest, Bool.and_eq_true, beq_iff_eq] at fits
  obtain ⟨⟨⟨⟨user, account⟩, content⟩, _⟩, postType⟩ := fits
  exact ⟨user, account, content, postType⟩

namespace Rehearsal.Cast

/-- An account that was read is the one of this cast, or was not there. -/
def readsAccount : Services.Exchange → Bool
  | ⟨.getAccount id, .ok found⟩ => found == AccountStore.find? { rows := [account] } id
  | _ => true

theorem answered_of_readsAccount {exchange : Services.Exchange}
    (reads : readsAccount exchange = true) : AccountStore.Answered exchange := by
  obtain ⟨c, answer⟩ := exchange
  cases c with
  | getAccount id =>
    cases answer with
    | ok found => exact ⟨_, beq_iff_eq.1 reads⟩
    | error fault => trivial
  | _ => trivial

theorem ending_errand (outcome : Except PlatformError PublishResult) : ∃ rest,
    (ending outcome).office.errands[0]? = some ⟨.execute engine request, rest⟩ := by
  obtain ⟨rest, errands⟩ := ending_errands outcome
  exact ⟨rest, by rw [errands]; rfl⟩

theorem uploaded_called : ⟨.publish .youtube context, uploaded⟩ ∈ (ending uploaded).log.of 0 := by
  obtain ⟨_, _, _, _, _, published, _⟩ := uploads_shown
  exact mem_of_publishes published

theorem uploaded_answered (exchange : Services.Exchange)
    (member : exchange ∈ (ending uploaded).log.of 0) : AccountStore.Answered exchange := by
  have reads : ((ending uploaded).log.of 0).all readsAccount = true := by decide +kernel
  exact answered_of_readsAccount (List.all_eq_true.1 reads exchange member)

end Rehearsal.Cast

namespace Office

variable {log : OfficeLog} {office : Office} {i : Nat} {engine : Engine} {request : Request}
  {rest : Program Services (Except PublishError Reply)} {strategy : Platform}
  {context : PublishContext} {answer : Except PlatformError PublishResult}

/-- What an execution did before it called a publisher. It told the start of a job that fits the
request, read the account of this job, got the token of this account, and had the publisher from
the registry. -/
theorem Runs.publish_called (reached : Runs {} log office)
    (here : office.errands[i]? = some ⟨.execute engine request, rest⟩)
    (asked : ⟨.publish strategy context, answer⟩ ∈ log.of i) :
    ∃ job ∈ office.stores.jobs.rows, ∃ before tokens after start,
      log.of i = before ++ (⟨.getAccount job.accountId, .ok (some context.account)⟩ ::
        (tokens ++ ⟨.publish strategy context, answer⟩ :: after)) ∧
      ⟨.records (.send start), .ok ()⟩ ∈ before ∧ start.eventType = "publish.started.v1" ∧
      start.IsFor job ∧ job.matchesRequest request = true ∧ context.request = request ∧
      Engine.checkPlatform job context.account = .ok () ∧
      (engine.renewal.validToken context.account).run.Follows tokens
        (.done (.ok context.accessToken)) ∧
      engine.registry.resolve job.platform = .ok strategy := by
  obtain ⟨s, t, sound, goes, later⟩ := reached.goes here
  obtain ⟨_, executes⟩ := Action.goes_of_pure goes
  obtain ⟨job, start, before, attempting, after, _, parts, hasRow, fits, forJob, announced,
    inAttempt, attempts⟩ := Engine.execute_called sound executes asked
  obtain ⟨tokens, rfl, ofRequest, checked, token, resolved⟩ :=
    Engine.attempt_called attempts inAttempt
  obtain ⟨row, found, same⟩ := hasRow.later later
  obtain ⟨sending, sent, told⟩ := List.mem_filterMap.1 announced
  obtain ⟨answer, rfl, taken⟩ := Deed.of?_eq_told told
  obtain rfl : answer = .ok () := by
    cases answer with
    | ok => rfl
    | error fault => cases taken
  have isFor : (Announcement.envelope job (.started start)).IsFor job :=
    Announcement.envelope_isFor rfl forJob
  have account : row.accountId = job.accountId := by simpa using congrArg Job.accountId same
  have platform : row.platform = job.platform := by simpa using congrArg Job.platform same
  refine ⟨row, JobStore.mem_of_find? found, before, tokens, after, _, ?_, sent, rfl,
    isFor.of_work_eq same, ?_, ofRequest, ?_, token, platform ▸ resolved⟩
  · rw [parts, account]
    simp
  · rw [← Job.work_matchesRequest, same, Job.work_matchesRequest]
    exact fits
  · rw [← checked, Engine.checkPlatform, Engine.checkPlatform, platform]

/-- A token only reaches its own platform. Take any run of an office from its beginning, with any
tasks, any order of calls and any answers and faults, and an execution in it whose registry was
built from a list of publishers. Whenever it calls a publisher, this is the one in the list that the
registry gives for the platform of the job that the execution started, and it is for the platform
that the text in the job stands for, which is the platform of the account too. The account is the
one that was read under the account identifier of the job, the request is for the content and the
post type of the job, and the token is what came of the calls for a valid token of this account. -/
theorem publish_suited {S : Type} {platformOf : S → Platform} {publishers : List S}
    {registry : Registry S} (built : Registry.build platformOf publishers = .ok registry)
    (known : engine.registry = registry.byPlatform platformOf) (reached : Runs {} log office)
    (here : office.errands[i]? = some ⟨.execute engine request, rest⟩)
    (accounts : ∀ exchange ∈ log.of i, AccountStore.Answered exchange)
    (asked : ⟨.publish strategy context, answer⟩ ∈ log.of i) :
    ∃ job ∈ office.stores.jobs.rows, ∃ publisher ∈ publishers,
      registry.resolve job.platform = .ok publisher ∧ platformOf publisher = strategy ∧
      strategy = context.account.platform ∧ Platform.ofKey job.platform = .ok strategy ∧
      context.account.id = job.accountId ∧ context.request.contentId = job.contentId ∧
      context.postType = job.postType ∧ ∃ before tokens after start,
        log.of i = before ++ (⟨.getAccount job.accountId, .ok (some context.account)⟩ ::
          (tokens ++ ⟨.publish strategy context, answer⟩ :: after)) ∧
        ⟨.records (.send start), .ok ()⟩ ∈ before ∧ start.eventType = "publish.started.v1" ∧
        start.IsFor job ∧ (engine.renewal.validToken context.account).run.Follows tokens
          (.done (.ok context.accessToken)) := by
  obtain ⟨job, member, before, tokens, after, start, parts, sent, type, isFor, fits, ofRequest,
    checked, token, resolved⟩ := reached.publish_called here asked
  rw [known] at resolved
  obtain ⟨publisher, found, same⟩ := Registry.of_resolve_byPlatform resolved
  obtain ⟨listed, named⟩ := Registry.of_resolve_build built found
  rw [same] at named
  obtain ⟨_, _, content, postType⟩ := Job.matchesRequest_eq fits
  have read : AccountStore.Answered ⟨.getAccount job.accountId, .ok (some context.account)⟩ :=
    accounts _ (by simp [parts])
  obtain ⟨store, is⟩ := read
  have sameId : context.account.id = job.accountId := by simpa using List.find?_some is.symm
  refine ⟨job, member, publisher, listed, found, same,
    Engine.eq_platform_of_checkPlatform checked named, named, sameId, ?_, ?_, before, tokens, after,
    start, parts, sent, type, isFor, token⟩
  · rw [ofRequest, content]
  · rw [PublishContext.postType, ofRequest, postType]

open Rehearsal in
/-- An upload of a video: the account is read, its token is still valid, and the publisher of videos
is called with it. -/
theorem publish_suited_upload : ∃ log office rest, Runs {} log office ∧
    office.errands[0]? = some ⟨.execute Cast.engine Cast.request, rest⟩ ∧
    ⟨.publish .youtube Cast.context, Cast.uploaded⟩ ∈ log.of 0 ∧
    ∃ job ∈ office.stores.jobs.rows, Platform.ofKey job.platform = .ok .youtube ∧
      Cast.account.id = job.accountId ∧ ∃ tokens,
        (Cast.engine.renewal.validToken Cast.account).run.Follows tokens
          (.done (.ok Cast.account.accessToken)) := by
  obtain ⟨rest, here⟩ := Cast.ending_errand Cast.uploaded
  have reached := (Cast.ending_isRun Cast.uploaded).1
  have built : Registry.build id [.youtube] = .ok Cast.engine.registry := rfl
  obtain ⟨job, member, _, _, _, _, _, named, account, _, _, _, tokens, _, _, _, _, _, _, token⟩ :=
    publish_suited built rfl reached here Cast.uploaded_answered Cast.uploaded_called
  exact ⟨_, _, rest, reached, here, Cast.uploaded_called, job, member, named, account, tokens,
    token⟩

end Office

end Syndication
