import Syndication.Proofs.Bookings
import Syndication.Proofs.Registries
import Syndication.Proofs.Rehearsal

namespace Syndication

def ServiceCall.IsPublish : ServiceCall → Prop
  | .publish .. => True
  | _ => False

theorem Stores.Replies.total (s : Stores) (c : ServiceCall) : ∃ a t, s.Replies c a t := by
  have fault : ServiceFault := .database ""
  cases c with
  | records c =>
    cases c with
    | now => exact ⟨(default : Timestamp), s, rfl⟩
    | freshId => exact ⟨.ofNat 0, s, rfl⟩
    | insertPost post =>
      have known : (ServiceFault.database "").isDuplicate = false := rfl
      exact ⟨.error (.database ""), s, by simp [known], rfl⟩
    | _ => exact ⟨.error fault, s, rfl⟩
  | lease account => exact ⟨⟨0⟩, s, rfl⟩
  | renew platform token limit => exact ⟨.timedOut, s, rfl⟩
  | publish platform context => exact ⟨.error (.internal ""), s, rfl⟩
  | getAccount _ | saveAccount _ => exact ⟨.error fault, s, rfl⟩
  | enter _ | leave _ | giveBack _ | sweep _ => exact ⟨(), s, rfl⟩

namespace RenewalPolicy

open Syndication.Action Program

/-- A token whose expiry is not known may be renewed, whatever the policy. -/
theorem renewStored_mayReach (policy : RenewalPolicy) (id : AccountId) {account : Account}
    {refresh : Secret} (refreshable : account.usableRefreshToken? = some refresh)
    {now : Timestamp} {grant : TokenGrant} {renewed : Account}
    (applied : account.applyGrant? grant now = some renewed) (s : Stores) :
    (policy.renewStored id account now).MayReach Stores.Replies s renewed.accessToken s := by
  unfold renewStored
  simp only [refreshable]
  have granted : (policy.askEndpoint id account.platform refresh).MayReach Stores.Replies s grant
      s := by
    have answered : (Services.renew account.platform refresh policy.limit).Plays Stores.Replies s _
        (.done (.answered (.ok grant))) s := .ask rfl
    exact (MayReach.always answered).bind .pure
  refine granted.bind ?_
  have calculated : (ofCalendar (account.applyGrant? grant now) : Program Services Account).Plays
      Stores.Replies s [] (.done renewed) s := by
    rw [applied]
    exact .stop _ _
  refine (MayReach.always calculated).bind ?_
  have saved : (Services.saveAccount renewed).Plays Stores.Replies s _ (.done (.ok ())) s :=
    .ask rfl
  exact (MayReach.persisted saved).bind .pure

theorem insideLock_mayReach {α : Type} (id : AccountId) {work : Action Services α} {s : Stores}
    {value : α} (reach : work.MayReach Stores.Replies s value s) :
    (insideLock id work).MayReach Stores.Replies s value s := by
  obtain ⟨log, plays⟩ := reach
  have leased : (Services.lease id).Plays Stores.Replies s _ (.done ⟨0⟩) s := .ask rfl
  have entered : (Services.enter ⟨0⟩).Plays Stores.Replies s _ (.done ()) s := .ask rfl
  have left : (Services.leave ⟨0⟩).Plays Stores.Replies s _ (.done ()) s := .ask rfl
  have gaveBack : (Services.giveBack ⟨0⟩).Plays Stores.Replies s _ (.done ()) s := .ask rfl
  have swept : (Services.sweep id).Plays Stores.Replies s _ (.done ()) s := .ask rfl
  constructor
  simp only [insideLock, ExceptT.run_mk, bind_eq, pure_eq]
  exact ⟨_, leased.bind (entered.bind (plays.bind
    (left.bind (gaveBack.bind (swept.bind (.stop _ _))))))⟩

theorem validToken_mayReach (policy : RenewalPolicy) {account : Account}
    (unknown : account.expiresAt = none) {refresh : Secret}
    (refreshable : account.usableRefreshToken? = some refresh) (s : Stores) :
    ∃ token, (policy.validToken account).MayReach Stores.Replies s token s := by
  have clock : Services.now.Plays Stores.Replies s _ (.done (default : Timestamp)) s := .ask rfl
  have expired :
      (policy.needsRenewal account default).Plays Stores.Replies s [] (.done true) s := by
    simp only [needsRenewal, Account.needsRefresh?, unknown, ofCalendar]
    exact .stop _ _
  obtain ⟨renewed, applied⟩ :
      ∃ renewed, account.applyGrant? ⟨⟨""⟩, 0, none⟩ default = some renewed := ⟨_, rfl⟩
  refine ⟨renewed.accessToken, ?_⟩
  have inside : (policy.validTokenInside account.id).MayReach Stores.Replies s
      renewed.accessToken s := by
    have read : (Services.getAccount account.id).Plays Stores.Replies s _
        (.done (.ok (some account))) s := .ask rfl
    refine (MayReach.persisted read).bind ((MayReach.always clock).bind ?_)
    exact (MayReach.always expired).bind (policy.renewStored_mayReach _ refreshable applied s)
  refine (MayReach.always clock).bind ((MayReach.always expired).bind ?_)
  exact insideLock_mayReach account.id inside

end RenewalPolicy

namespace Engine

/-- Alone with the stores, a delivery of the request is carried out to its end by these calls. -/
def Delivers (engine : Engine) (request : Request) (s : Stores) (log : List Services.Exchange)
    (t : Stores) : Prop :=
  ∃ rest, (engine.execute request).run.Plays Stores.Replies s log rest t ∧ rest.IsOver

/-- The calls begin with those that open this job for the request. -/
def Resolves (engine : Engine) (request : Request) (log : List Services.Exchange) (id : JobId) :
    Prop :=
  ∃ first second job, log = first ++ second ∧ job.id = id ∧
    (Ledger.openJob engine.retryBudget request).toServices.run.Follows first (.done (.ok job))

/-- Any number of deliveries, each carried out to its end before the next one begins. -/
inductive Deliveries (engine : Engine) (s : Stores) : Stores → Prop
  | start : Deliveries engine s s
  | next {t u : Stores} {request : Request} {log : List Services.Exchange} :
      Deliveries engine s t → engine.Delivers request t log u → Deliveries engine s u

/-- No delivery from now on that is for the job calls a publisher. -/
def PublishesNoMore (engine : Engine) (s : Stores) (id : JobId) : Prop :=
  ∀ t request log u, engine.Deliveries s t → engine.Delivers request t log u →
    engine.Resolves request log id → ∀ exchange ∈ log, ¬ exchange.1.IsPublish

variable {engine : Engine} {s t : Stores}

theorem Delivers.sound {request : Request} {log : List Services.Exchange}
    (delivers : engine.Delivers request s log t) (sound : s.Sound) : t.Sound ∧ s.Later t := by
  obtain ⟨rest, plays, _⟩ := delivers
  have contract : (engine.execute request).Ensures (.publishing False) _ s :=
    execute_ensures sound engine request
  obtain ⟨soundT, later, _⟩ := contract.meets.plays sound plays
  exact ⟨soundT, later⟩

theorem Deliveries.sound (deliveries : engine.Deliveries s t) (sound : s.Sound) :
    t.Sound ∧ s.Later t := by
  induction deliveries with
  | start => exact ⟨sound, .refl s⟩
  | next _ delivers ih =>
    obtain ⟨soundU, later⟩ := delivers.sound ih.1
    exact ⟨soundU, ih.2.trans later⟩

theorem Deliveries.resolvable (deliveries : engine.Deliveries s t)
    (earlier : ∀ post ∈ s.posts.rows, ∃ publisher,
      engine.registry.resolve post.platform = .ok publisher) :
    ∀ post ∈ t.posts.rows, ∃ publisher, engine.registry.resolve post.platform = .ok publisher := by
  induction deliveries with
  | start => exact earlier
  | @next t u request log _ delivers ih =>
    intro post member
    obtain ⟨rest, plays, _⟩ := delivers
    rcases plays.post_origin member with old | ⟨exchange, inLog, is⟩
    · exact ih post old
    · have within := (Program.Yields.follows (execute_postsWithin engine request).meets
        plays.follows).1 exchange inLog
      rw [is] at within
      exact within

theorem publishesNoMore_of_settled (sound : s.Sound) {id : JobId} {row : Job}
    (found : s.jobs.find? id = some row)
    (settled : row.status = .pending → row.idempotencyKey = none) :
    engine.PublishesNoMore s id := by
  intro t request log u deliveries delivers resolves
  obtain ⟨first, second, job, rfl, rfl, follows⟩ := resolves
  obtain ⟨rest, plays, _⟩ := delivers
  obtain ⟨soundT, later⟩ := deliveries.sound sound
  simp only [execute, Action.run_bind] at plays
  obtain ⟨v, begun, ended⟩ := plays.split_bind follows
  have contract : (Ledger.openJob engine.retryBudget request).toServices.Ensures
      (.publishing False) _ t := (Ledger.openJob_ensures soundT _ request).toServices
  obtain ⟨soundV, laterV, opened⟩ := contract.meets.plays soundT begun
  obtain ⟨here, unknown | hasKey⟩ := opened job rfl
  · simp [later.unknown unknown] at found
  · obtain ⟨row', found', same, kept⟩ := (later.trans laterV).row found
    obtain rfl : job = row' := by simpa [here] using found'
    have finished : row.isTerminal = true := by
      refine Job.isTerminal_iff.2 fun pending => ?_
      have sameKey : job.idempotencyKey = row.idempotencyKey := by
        simpa using congrArg Job.idempotencyKey same
      simp [sameKey, settled pending] at hasKey
    obtain rfl := kept finished
    -- a finished job ends the delivery, so that only the calls that opened it are left
    have nothing : second = [] := by
      simp only [finished, if_true] at ended
      cases ended
      rfl
    have records : (Ledger.openJob engine.retryBudget request).toServices.CallsOnly
        fun c => ∃ r, c = ServiceCall.records r :=
      ⟨Program.Yields.through (Ledger.openJob_quiet _ request).meets fun c _ => ⟨c, rfl⟩⟩
    intro exchange member
    rw [nothing, List.append_nil] at member
    obtain ⟨r, is⟩ := (Program.Yields.follows records.meets follows).1 exchange member
    simp [is, ServiceCall.IsPublish]

theorem attempt_mayCall (engine : Engine) (job : Job) (request : Request) {publisher : Platform}
    (resolved : engine.registry.resolve job.platform = .ok publisher) (s : Stores) :
    (engine.attempt job request).MayCall Stores.Replies s ServiceCall.IsPublish := by
  obtain ⟨platform, named, _⟩ := Registry.resolve_eq_ok_iff.1 resolved
  let account : Account :=
    ⟨job.accountId, job.userId, platform, "", none, ⟨""⟩, some ⟨"refresh"⟩, none, job.createdAt,
      job.createdAt⟩
  have read : (Services.getAccount job.accountId).Plays Stores.Replies s _
      (.done (.ok (some account))) s := .ask rfl
  have fits : checkPlatform job account = .ok () := by simp [checkPlatform, named, account]
  have unknown : account.expiresAt = none := rfl
  have refreshable : account.usableRefreshToken? = some ⟨"refresh"⟩ := by
    simp [Account.usableRefreshToken?, account]
  obtain ⟨token, renewed⟩ := engine.renewal.validToken_mayReach unknown refreshable s
  have asked : (Services.publish publisher ⟨request, account, token⟩).Plays Stores.Replies s _
      (.done (.error (.internal ""))) s := .ask rfl
  unfold attempt
  refine .bind (.persisted read) (.bind (.ofExcept fits) ?_)
  refine .bind renewed (.bind (.ofExcept resolved) (.bind_left ?_ _))
  exact ⟨_, _, _, asked.bind_left _, _, List.mem_singleton_self _, trivial⟩

theorem start_mayReach (sound : s.Sound) {row : Job} (member : row ∈ s.jobs.rows)
    (pending : row.status = .pending) : ∃ started t,
      (Ledger.start row).MayReach Stores.Answers s started t ∧
        started.status = .pending ∧ started.platform = row.platform := by
  have found := sound.find?_iff.2 ⟨member, rfl⟩
  have clock : Records.now.Plays Stores.Answers s _ (.done (default : Timestamp)) s := .ask rfl
  unfold Ledger.start
  rcases row.markStarted_eq default with marked | ⟨started, marked, same, stillPending⟩
  · refine ⟨row, s, .bind (.always clock) ?_, pending, rfl⟩
    simp only [marked]
    exact .pure
  · have sameId := Job.id_eq_of_work_eq same
    obtain ⟨jobs, updated⟩ : ∃ jobs, s.jobs.update started = .ok (true, jobs) := by
      simp [JobStore.update, sameId, found, Job.isTerminal_eq_false pending]
    have written : (Records.updateJob started).Plays Stores.Answers s _ (.done (.ok true))
        { s with jobs } := .ask ⟨jobs, updated, rfl⟩
    refine ⟨started, { s with jobs }, .bind (.always clock) ?_, stillPending,
      Job.platform_eq_of_work_eq same⟩
    simp only [marked]
    exact .bind (.persisted written) .pure

theorem announce_mayReach (job : Job) (s : Stores) :
    ∃ event, (Announcement.started job).MayReach Stores.Answers s event s := by
  have id : Records.freshId.Plays Stores.Answers s _ (.done (.ofNat 0)) s := .ask rfl
  obtain ⟨time, log, timed⟩ : ∃ time log,
      (Announcement.timeOf job.startedAt).Plays Stores.Answers s log (.done time) s := by
    cases job.startedAt with
    | some time => exact ⟨time, [], .stop _ _⟩
    | none => exact ⟨default, _, .ask rfl⟩
  have sent (envelope : Envelope) :
      (Action.delivered (Records.send envelope)).MayReach Stores.Answers s () s :=
    .delivered (.ask rfl)
  exact ⟨_, .bind (.always id) (.bind (.always timed) (.bind (sent _) .pure))⟩

/-- A request may be opened as the row that has its key, if it is for the same thing. -/
theorem openJob_mayReach (sound : s.Sound) {row : Job} (member : row ∈ s.jobs.rows)
    {request : Request} (valid : request.validate = .ok ()) {key : String}
    (has : row.idempotencyKey = some key) (asks : request.idempotencyKey = some key)
    (fits : row.matchesRequest request = true) (budget : UInt32) :
    (Ledger.openJob budget request).MayReach Stores.Answers s row s := by
  have read : (Records.findJobByKey key).Plays Stores.Answers s _ (.done (.ok (some row))) s :=
    .ask ⟨(sound.findByKey?_eq member has).symm, rfl⟩
  have reused : Ledger.reuse row request key = .ok row := by
    simp [Ledger.reuse, fits]
  unfold Ledger.openJob
  refine .bind (.ofExcept valid) ?_
  simp only [asks]
  exact .bind (.persisted read) (.ofExcept reused)

/-- A pending job with a key may be published again, as long as there is a publisher for its
platform: the request that it was made for is delivered once more. -/
theorem mayPublishAgain (sound : s.Sound) {row : Job} (member : row ∈ s.jobs.rows)
    (pending : row.status = .pending) (hasKey : row.idempotencyKey.isSome = true)
    {publisher : Platform} (resolved : engine.registry.resolve row.platform = .ok publisher) :
    ∃ request log t, engine.Delivers request s log t ∧ engine.Resolves request log row.id ∧
      ∃ exchange ∈ log, exchange.1.IsPublish := by
  obtain ⟨request, budget, id, now, valid, made⟩ := sound.asked _ (List.mem_map_of_mem member)
  obtain ⟨key, has⟩ := Option.isSome_iff_exists.1 hasKey
  have asksKey : request.idempotencyKey = some key := by
    have same := congrArg Job.idempotencyKey made
    exact same.symm.trans has
  have opened : (Ledger.openJob engine.retryBudget request).MayReach Stores.Answers s row s :=
    openJob_mayReach sound member valid has asksKey (Job.matchesRequest_of_work_eq made) _
  obtain ⟨started, t, starts, stillPending, samePlatform⟩ := start_mayReach sound member pending
  obtain ⟨event, announced⟩ := announce_mayReach started t
  obtain ⟨first, begun⟩ := opened.toServices
  obtain ⟨second, rest, u, plays, exchange, called, publishes⟩ : ∃ second rest u,
      (engine.execute request).run.Plays Stores.Replies s (first ++ second) rest u ∧
        ∃ exchange ∈ second, exchange.1.IsPublish := by
    unfold execute
    refine Action.MayCall.after begun ?_
    simp only [Job.isTerminal_eq_false pending]
    refine .bind starts.toServices ?_
    simp only [Job.isTerminal_eq_false stillPending]
    refine .bind announced.toServices (.bind_left (.always ?_) _)
    exact engine.attempt_mayCall started request (samePlatform ▸ resolved) t
  obtain ⟨third, last, v, ended, isOver⟩ := Program.exists_plays Stores.Replies.total rest u
  refine ⟨request, first ++ (second ++ third), v, ⟨last, ?_, isOver⟩,
    ⟨first, second ++ third, row, rfl, rfl, begun.follows⟩, exchange, by simp [called], publishes⟩
  rw [← List.append_assoc]
  exact plays.trans ended

/-- When a job with a post is published again. After any sequence of deliveries, with any answers
and faults, let a post be stored for a job. Then no later delivery for the job calls a publisher
exactly when the row of the job is finished or has no key. -/
theorem publishesNoMore_iff (delivered : engine.Deliveries {} s) {id : JobId} {post : Post}
    (posted : s.posts.find? id = some post) :
    engine.PublishesNoMore s id ↔ ∀ row, s.jobs.find? id = some row →
      row.status = .pending → row.idempotencyKey = none := by
  obtain ⟨sound, _⟩ := delivered.sound .empty
  have inPosts := PostStore.mem_of_find? posted
  obtain ⟨work, inWork, sameId, _, _⟩ := sound.owned post inPosts
  obtain ⟨row, member, rfl⟩ := List.mem_map.1 inWork
  have sameId : row.id = id := sameId.trans (PostStore.jobId_of_find? posted)
  have found : s.jobs.find? id = some row := sound.find?_iff.2 ⟨member, sameId⟩
  constructor
  · intro noMore other foundOther pending
    obtain rfl : row = other := by simpa [found] using foundOther
    by_contra hasKey
    obtain ⟨publisher, resolved⟩ := delivered.resolvable (by simp) post inPosts
    have platform := (sound.owner_eq member inPosts
      ((PostStore.jobId_of_find? posted).trans sameId.symm)).2
    rw [platform] at resolved
    obtain ⟨request, log, t, delivers, resolves, exchange, inLog, publishes⟩ :=
      mayPublishAgain sound member pending (Option.isSome_iff_ne_none.2 hasKey) resolved
    exact noMore s request log t .start delivers (sameId ▸ resolves) exchange inLog publishes
  · exact fun settled => publishesNoMore_of_settled sound found (settled row found)

open Rehearsal in
theorem deliveries_delivered (updates : List Bool) (answers : List PublishResult) :
    Cast.engine.Deliveries {} (Cast.delivered updates answers).stores := by
  obtain ⟨plays, _⟩ := Program.plays_run Stage.perform_imitates
    (Cast.engine.execute Cast.request).run (Cast.stage_honest updates answers)
  exact .next .start ⟨_, plays, Program.ended_isOver _⟩

open Rehearsal in
/-- A delivery publishes and stores its post, but cannot move the row on. When its request is
delivered once more, it is published once more. -/
theorem published_again : ∃ s request log t id post, Cast.engine.Deliveries {} s ∧
    s.posts.find? id = some post ∧ Cast.engine.Delivers request s log t ∧
      Cast.engine.Resolves request log id ∧ ∃ exchange ∈ log, exchange.1.IsPublish := by
  have delivered := deliveries_delivered [true, false] []
  obtain ⟨row, member, pending, hasKey, platform, posted⟩ : ∃ row ∈
      (Cast.delivered [true, false] []).stores.jobs.rows, row.status = .pending ∧
        row.idempotencyKey.isSome = true ∧ row.platform = "YOUTUBE" ∧
        ((Cast.delivered [true, false] []).stores.posts.find? row.id).isSome = true := by
    decide +kernel
  have resolved : Cast.engine.registry.resolve row.platform = .ok .youtube := by
    rw [platform]
    rfl
  obtain ⟨post, found⟩ := Option.isSome_iff_exists.1 posted
  obtain ⟨request, log, t, again⟩ :=
    mayPublishAgain (delivered.sound .empty).1 member pending hasKey resolved
  exact ⟨_, request, log, t, row.id, post, delivered, found, again⟩

open Rehearsal in
theorem publishesNoMore_once : ∃ s id, Cast.engine.Deliveries {} s ∧
    (s.posts.find? id).isSome = true ∧ Cast.engine.PublishesNoMore s id := by
  have delivered := deliveries_delivered [] []
  obtain ⟨post, _, posted, finished⟩ : ∃ post ∈ (Cast.delivered [] []).stores.posts.rows,
      (Cast.delivered [] []).stores.posts.find? post.jobId = some post ∧
        ∀ row ∈ (Cast.delivered [] []).stores.jobs.rows, row.status ≠ .pending := by
    decide +kernel
  refine ⟨_, post.jobId, delivered, by simp [posted], ?_⟩
  refine (publishesNoMore_iff delivered posted).2 fun row found pending => ?_
  exact absurd pending (finished row (JobStore.mem_of_find? found))

end Engine

end Syndication
