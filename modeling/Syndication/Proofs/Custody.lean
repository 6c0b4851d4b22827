import Syndication.Proofs.Owners
import Syndication.Proofs.SingleRenewal

namespace Syndication

/-- The account is the other one but for its credentials, and the time of its last change. -/
def Account.IsRenewed (account other : Account) : Prop :=
  account = { other with
    accessToken := account.accessToken
    refreshToken := account.refreshToken
    expiresAt := account.expiresAt
    updatedAt := account.updatedAt }

namespace Account.IsRenewed

variable {account other third : Account}

theorem refl (account : Account) : account.IsRenewed account := rfl

theorem symm (renewed : account.IsRenewed other) : other.IsRenewed account := by
  rw [renewed]
  rfl

theorem trans (renewed : account.IsRenewed other) (earlier : other.IsRenewed third) :
    account.IsRenewed third := by
  rw [IsRenewed, renewed, earlier]

theorem id_eq (renewed : account.IsRenewed other) : account.id = other.id := by
  rw [renewed]

theorem of_applyGrant? {grant : TokenGrant} {now : Timestamp}
    (granted : other.applyGrant? grant now = some account) : account.IsRenewed other := by
  obtain ⟨_, _, rfl⟩ := Option.map_eq_some_iff.1 granted
  rfl

end Account.IsRenewed

namespace AccountStore

/-- What a store of accounts may answer to a call, and what becomes of it. A call may fail with any
fault, and has no effect then. -/
def Answers : Surroundings Services AccountStore
  | store, .getAccount id, .ok found, later => found = store.find? id ∧ later = store
  | store, .saveAccount account, .ok _, later => store.save account = .ok later
  | store, _, _, later => later = store

/-- At most the credentials of one account, and the time of its last change, are other ones. -/
structure Renewed (id : AccountId) (store later : AccountStore) : Prop where
  ids : later.rows.map (·.id) = store.rows.map (·.id)
  others : ∀ other, other ≠ id → later.find? other = store.find? other
  own : ∀ row, store.find? id = some row → ∃ renewed, later.find? id = some renewed ∧
    renewed.IsRenewed row

namespace Renewed

variable {id : AccountId} {store later last : AccountStore}

theorem refl (store : AccountStore) : Renewed id store store where
  ids := rfl
  others _ _ := rfl
  own row found := ⟨row, found, .refl row⟩

theorem trans (first : Renewed id store later) (second : Renewed id later last) :
    Renewed id store last where
  ids := second.ids.trans first.ids
  others other apart := (second.others other apart).trans (first.others other apart)
  own row found := by
    obtain ⟨mid, foundMid, renewedMid⟩ := first.own row found
    obtain ⟨renewed, foundLast, again⟩ := second.own mid foundMid
    exact ⟨renewed, foundLast, again.trans renewedMid⟩

theorem of_save {account row : Account} (found : store.find? id = some row)
    (renews : account.IsRenewed row) (saved : store.save account = .ok later) :
    Renewed id store later := by
  have sameId : account.id = id := renews.id_eq.trans (id_of_find? found)
  obtain ⟨_, replaced⟩ := AccountStore.of_save saved
  constructor
  case ids =>
    rw [replaced, replace, List.map_map]
    refine List.map_congr_left fun other _ => ?_
    by_cases here : other.id = account.id <;> simp [here]
  case others =>
    intro other apart
    exact find?_of_save_of_ne saved (sameId ▸ apart.symm)
  case own =>
    intro other stored
    obtain rfl : row = other := by simpa [found] using stored
    exact ⟨account, sameId ▸ find?_of_save saved, renews⟩

end Renewed

/-- The account is stored, though maybe with other credentials. -/
def Knows (id : AccountId) (store : AccountStore) (account : Account) : Prop :=
  ∃ row, store.find? id = some row ∧ account.IsRenewed row

theorem Knows.later {id : AccountId} {store later : AccountStore} {account : Account}
    (knows : Knows id store account) (moved : Renewed id store later) :
    Knows id later account := by
  obtain ⟨row, found, renews⟩ := knows
  obtain ⟨renewed, foundLater, again⟩ := moved.own row found
  exact ⟨renewed, foundLater, renews.trans again.symm⟩

/-- Calls that save at most the account with this identifier, with other credentials. -/
def Permits (id : AccountId) (store : AccountStore) : ServiceCall → Prop
  | .saveAccount account => Knows id store account
  | _ => True

/-- A store is not touched by calls that save no account. -/
theorem eq_of_answers {store later : AccountStore} {c : ServiceCall} {answer : c.Answer}
    (answered : AccountStore.Answers store c answer later)
    (other : ∀ account, c ≠ .saveAccount account) : later = store := by
  cases c with
  | saveAccount account => exact absurd rfl (other account)
  | getAccount id =>
    cases answer with
    | ok found => exact answered.2
    | error fault => exact answered
  | _ => exact answered

theorem Permits.renewed {id : AccountId} {store later : AccountStore} {c : ServiceCall}
    {answer : c.Answer} (permitted : store.Permits id c)
    (answered : AccountStore.Answers store c answer later) : Renewed id store later := by
  cases c with
  | saveAccount account =>
    obtain ⟨row, found, renews⟩ := permitted
    cases answer with
    | ok _ => exact .of_save found renews answered
    | error fault =>
      obtain rfl := answered
      exact .refl _
  | _ =>
    obtain rfl := eq_of_answers answered fun _ same => by cases same
    exact .refl _

end AccountStore

/-- How executions share the store of accounts: each renews the account with this identifier at
most. -/
def Discipline.custody (id : AccountId) : Discipline Services AccountStore where
  around := AccountStore.Answers
  sound _ := True
  rely := AccountStore.Renewed id
  permits := AccountStore.Permits id
  refl := .refl
  trans := .trans
  keeps _ _ _ := trivial
  moves _ permitted answered := permitted.renewed answered

open Syndication.Action Program

/-- Calls that save no account are permitted to anybody. -/
theorem Action.CallsOnly.inCustody {α : Type} {x : Action Services α}
    {allowed : ServiceCall → Prop} (only : x.CallsOnly allowed)
    (noSave : ∀ account, ¬ allowed (.saveAccount account)) (id : AccountId)
    (store : AccountStore) : x.Ensures (.custody id) (fun _ _ => True) store := by
  refine only.ensures (.custody id) (fun c here store => ?_) store
  cases c with
  | saveAccount account => exact absurd here (noSave account)
  | _ => trivial

section

variable {id : AccountId} {store : AccountStore}

theorem Services.getAccount_inCustody :
    (Action.persisted (Services.getAccount id)).Ensures (.custody id)
      (fun found store => ∀ account, found = some account → AccountStore.Knows id store account)
      store := by
  refine .persisted fun store _ _ => ⟨trivial, fun answer later answered => ?_⟩
  rintro found rfl account rfl
  obtain ⟨found, rfl⟩ := answered
  exact ⟨account, found.symm, .refl account⟩

theorem Services.saveAccount_inCustody {account : Account}
    (knows : AccountStore.Knows id store account) :
    (Action.persisted (Services.saveAccount account)).Ensures (.custody id) (fun _ _ => True)
      store :=
  .persisted fun _ moved _ => ⟨knows.later moved, fun _ _ _ _ _ => trivial⟩

namespace RenewalPolicy

variable (policy : RenewalPolicy)

theorem renewStored_inCustody {account : Account} (knows : AccountStore.Knows id store account)
    (now : Timestamp) : (policy.renewStored id account now).Ensures (.custody id)
      (fun _ _ => True) store := by
  unfold renewStored
  split
  · exact .throw
  · rename_i token _
    refine ((policy.askEndpoint_namesNoAccount id account.platform token).inCustody
      (fun _ => not_false) id store).bind trivial fun grant store _ moved _ => ?_
    cases granted : account.applyGrant? grant now with
    | none => exact ⟨trivial⟩
    | some renewed =>
      obtain ⟨row, found, renews⟩ := knows.later moved
      have saves : AccountStore.Knows id store renewed :=
        ⟨row, found, (Account.IsRenewed.of_applyGrant? granted).trans renews⟩
      have goesOn : (Action.persisted (Services.saveAccount renewed) >>= fun _ =>
          pure renewed.accessToken).Ensures (.custody id) (fun _ _ => True) store :=
        (Services.saveAccount_inCustody saves).bind trivial fun _ _ _ _ _ => .pure trivial
      exact goesOn

theorem validTokenInside_inCustody : (policy.validTokenInside id).Ensures (.custody id)
    (fun _ _ => True) store := by
  unfold validTokenInside
  refine Services.getAccount_inCustody.bind trivial fun found store _ _ knows => ?_
  cases found with
  | none => exact .throw
  | some account =>
    have reads : (Action.always Services.now).CallsOnly ServiceCall.IsOnRecords :=
      .always (Yields.ask trivial)
    refine (reads.inCustody (fun _ => not_false) id store).bind trivial
      fun now store _ moved _ => ?_
    have knows := (knows account rfl).later moved
    have decides : (Action.always (policy.needsRenewal account now)).CallsOnly fun _ => False :=
      .always Yields.ofCalendar
    refine (decides.inCustody (fun _ => not_false) id store).bind trivial
      fun expires store _ moved _ => ?_
    cases expires with
    | true => exact policy.renewStored_inCustody (knows.later moved) now
    | false => exact .pure trivial

/-- A call that saves nothing is permitted at any time. -/
theorem meets_inCustody (id : AccountId) (c : ServiceCall)
    (plain : ∀ store, AccountStore.Permits id store c)
    (store : AccountStore) :
    (Program.ask (I := Services) c).Meets (.custody id) (fun _ _ => True) store :=
  fun store _ _ => ⟨plain store, fun _ _ _ => trivial⟩

theorem insideLock_inCustody {α : Type} {work : Action Services α}
    (ensures : ∀ store, work.Ensures (.custody id) (fun _ _ => True) store) :
    (insideLock id work).Ensures (.custody id) (fun _ _ => True) store := by
  constructor
  simp only [insideLock, ExceptT.run_mk, bind_eq, pure_eq]
  have leases := meets_inCustody id (.lease id) (fun _ => trivial) store
  refine leases.bind trivial fun lease store _ _ _ => ?_
  have enters := meets_inCustody id (.enter lease) (fun _ => trivial) store
  refine enters.bind trivial fun _ store _ _ _ => ?_
  refine (ensures store).meets.bind trivial fun outcome store _ _ _ => ?_
  have leaves := meets_inCustody id (.leave lease) (fun _ => trivial) store
  refine leaves.bind trivial fun _ store _ _ _ => ?_
  have givesBack := meets_inCustody id (.giveBack lease) (fun _ => trivial) store
  refine givesBack.bind trivial fun _ store _ _ _ => ?_
  have sweeps := meets_inCustody id (.sweep id) (fun _ => trivial) store
  exact sweeps.bind trivial fun _ _ _ _ _ _ _ => trivial

/-- Whatever a token endpoint answers, the call for a valid token of an account changes at most the
credentials of this account. -/
theorem validToken_inCustody (account : Account) : (policy.validToken account).Ensures
    (.custody account.id) (fun _ _ => True) store := by
  unfold validToken
  have reads : (Action.always Services.now).CallsOnly ServiceCall.IsOnRecords :=
    .always (Yields.ask trivial)
  refine (reads.inCustody (fun _ => not_false) _ store).bind trivial fun now store _ _ _ => ?_
  have decides : (Action.always (policy.needsRenewal account now)).CallsOnly fun _ => False :=
    .always Yields.ofCalendar
  refine (decides.inCustody (fun _ => not_false) _ store).bind trivial
    fun expires store _ _ _ => ?_
  cases expires with
  | true => exact insideLock_inCustody fun _ => policy.validTokenInside_inCustody
  | false => exact .pure trivial

end RenewalPolicy

end

namespace Engine

variable (engine : Engine)

/-- An attempt for a job changes at most the credentials of its account. -/
theorem attempt_inCustody (job : Job) (request : Request) (store : AccountStore) :
    (engine.attempt job request).Ensures (.custody job.accountId) (fun _ _ => True) store := by
  unfold attempt
  refine Services.getAccount_inCustody.bind trivial fun found store _ _ knows => ?_
  cases found with
  | none => exact .throw
  | some account =>
    obtain ⟨row, found, renews⟩ := knows account rfl
    have own : account.id = job.accountId := renews.id_eq.trans (AccountStore.id_of_find? found)
    have silent {α : Type} (outcome : Except PublishError α) (store : AccountStore) :
        (Action.ofExcept outcome : Action Services α).Ensures (.custody job.accountId)
          (fun _ _ => True) store := .ofExcept fun _ _ => trivial
    refine (silent _ store).bind trivial fun _ store _ _ _ => ?_
    have renews : (engine.renewal.validToken account).Ensures (.custody account.id)
        (fun _ _ => True) store := engine.renewal.validToken_inCustody account
    rw [own] at renews
    refine renews.bind trivial fun token store _ _ _ => ?_
    refine (silent _ store).bind trivial fun publisher store _ _ _ => ?_
    have publishes : (Action.always (Services.publish publisher ⟨request, account, token⟩)).Ensures
        (.custody job.accountId) (fun _ _ => True) store :=
      .always fun _ _ _ => ⟨trivial, fun _ _ _ => trivial⟩
    refine publishes.bind trivial fun answer store _ _ _ => ?_
    cases answer with
    | ok result => exact .pure trivial
    | error error => exact .throw

end Engine

namespace Rehearsal.Stage

theorem Honest.accounts_keep {stage : Stage} (honest : stage.Honest) (c : RecordCall) :
    (stage.keep c).2.accounts = stage.accounts := by
  cases c with
  | now | freshId => rfl
  | insertJob job =>
    have trailed : { stage with jobTrail := stage.jobTrail ++ [job.id] }.Honest :=
      ⟨honest.plan, honest.alone, honest.scripted⟩
    refine trailed.atPoint_of_plan (P := fun outcome => outcome.2.accounts = stage.accounts)
      (fun _ _ => rfl) fun plan _ => ?_
    dsimp only
    split <;> rfl
  | updateJob job =>
    refine honest.atPoint_of_plan (P := fun outcome => outcome.2.accounts = stage.accounts)
      (fun _ _ => rfl) fun plan _ => ?_
    cases stage.jobs.update job <;> rfl
  | findJob | findJobByKey | findPost =>
    exact honest.atPoint_of_plan (P := fun outcome => outcome.2.accounts = stage.accounts)
      (fun _ _ => rfl) fun _ _ => rfl
  | insertPost post =>
    have trailed : { stage with postTrail := stage.postTrail ++ [post.id] }.Honest :=
      ⟨honest.plan, honest.alone, honest.scripted⟩
    refine trailed.atPoint_of_plan (P := fun outcome => outcome.2.accounts = stage.accounts)
      (fun _ _ => rfl) fun plan _ => ?_
    dsimp only
    split <;> rfl
  | send envelope =>
    simp only [keep, send]
    split <;> rfl

/-- An honest stage answers calls on accounts as a store of accounts may. -/
theorem Honest.answers {stage : Stage} (honest : stage.Honest) (c : ServiceCall) :
    AccountStore.Answers stage.accounts c (stage.perform c).1 (stage.perform c).2.accounts := by
  cases c with
  | records c => exact honest.accounts_keep c
  | getAccount id =>
    exact honest.atPoint_of_plan (P := fun outcome =>
      AccountStore.Answers stage.accounts (.getAccount id) outcome.1 outcome.2.accounts)
      (fun _ _ => rfl) fun _ _ => ⟨by simp, rfl⟩
  | saveAccount account =>
    refine honest.atPoint_of_plan (P := fun outcome =>
      AccountStore.Answers stage.accounts (.saveAccount account) outcome.1 outcome.2.accounts)
      (fun _ _ => rfl) fun plan _ => ?_
    cases saved : stage.accounts.save account with
    | ok accounts => exact saved
    | error fault => exact rfl
  | lease | enter | leave | giveBack | sweep => rfl
  | renew platform token limit =>
    simp only [perform, renewal, askToken, honest.scripted]
    rfl
  | publish platform context =>
    simp only [perform, publish, playPublish, honest.scripted, honest.noRival platform]
    rfl

/-- What of a stage the services keep. -/
def holdings (stage : Stage) : Stores × AccountStore := (stage.stores, stage.accounts)

/-- What is carried out on an honest stage is played with its records beside its accounts. -/
theorem act_plays_beside {α : Type} {stage : Stage} (honest : stage.Honest)
    {action : Action Services α} {outcome : Except PublishError α}
    (is : (stage.act action).1 = some outcome) :
    action.run.Plays (Stores.Replies.beside AccountStore.Answers) stage.holdings
      (action.run.transcript Stage.perform stage) (.done outcome)
      (stage.act action).2.holdings := by
  have imitates (c : ServiceCall) (stage : Stage) (honest : stage.Honest) :
      Stores.Replies.beside AccountStore.Answers stage.holdings c (stage.perform c).1
        (stage.perform c).2.holdings ∧ (stage.perform c).2.Honest := by
    obtain ⟨replies, still⟩ := stage.perform_imitates c honest
    exact ⟨⟨replies, honest.answers c⟩, still⟩
  have plays := (Program.plays_run imitates action.run honest).1
  rw [act] at is ⊢
  rwa [is] at plays

end Rehearsal.Stage

end Syndication
