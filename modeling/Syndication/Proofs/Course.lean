import Syndication.Proofs.Closing

namespace Syndication

/-- The deeds of an execution up to a point, and where it stands there. -/
inductive Course (s : Stores) : List Deed → Stand (Except PublishError Execution) → Prop
  | untold {stand} : (∀ execution, stand = .ended (.ok execution) →
      execution.outcome = .alreadyCompleted) → Course s [] stand
  | refused {job start error} : s.HasRow job → start.jobId = job.id →
      Course s [.announced job (.started start) false] (.ended (.error error))
  /-- The closing may assume that the attempt was complete if all results were. -/
  | accepted {job start asks closing stand} : s.HasRow job → start.jobId = job.id →
      (∀ deed ∈ asks, deed.IsAsked) →
      Closing job (∀ result, .asked (some result) ∈ asks → result.IsComplete) closing stand →
      Course s (.announced job (.started start) true :: (asks ++ closing)) stand

theorem Course.later {s t : Stores} {deeds : List Deed}
    {stand : Stand (Except PublishError Execution)} (course : Course s deeds stand)
    (later : s.Later t) : Course t deeds stand := by
  cases course with
  | untold done => exact .untold done
  | refused hasRow forJob => exact .refused (hasRow.later later) forJob
  | accepted hasRow forJob asked closes =>
    exact .accepted (hasRow.later later) forJob asked closes

/-- An action that may ask services other than the records, and shows what they came to. -/
def Asks {α σ : Type} (result? : α → Option PublishResult) (past now : List Deed)
    (stand : Stand (Except PublishError α)) (_ : σ) : Prop :=
  ∃ asks, now = past ++ asks ∧ (∀ deed ∈ asks, deed.IsAsked) ∧
    ∀ value, stand = .ended (.ok value) → ∀ result, result? value = some result →
      .asked (some result) ∈ asks

namespace Engine

open Syndication.Action Program

section Asks

variable {α β σ : Type} {scene : Scene Services σ} {past : List Deed} {s : σ}
  {result? : α → Option PublishResult}

theorem asks_of_outside {x : Action Services β} {f : β → Action Services α}
    (outside : x.CallsOnly ServiceCall.IsOutside)
    (next : ∀ value now t, (f value).Does scene Deed.of? (Asks result? now) now t) :
    (x >>= f).Does scene Deed.of? (Asks result? past) past s := by
  have first : x.Does scene Deed.of? (fun now _ _ =>
      ∃ asks, now = past ++ asks ∧ ∀ deed ∈ asks, deed.IsAsked) past s :=
    ⟨outside_asks (outside.meets.weaken fun _ _ _ => trivial)⟩
  refine first.bind (fun now stand last t broken is => ?_) fun now value t is => ?_
  · obtain ⟨asks, rfl, asked⟩ := is
    exact ⟨asks, rfl, asked, by cases broken <;> simp⟩
  · obtain ⟨before, rfl, asked⟩ := is
    refine (next value _ t).weaken fun now stand u is => ?_
    obtain ⟨asks, rfl, askedToo, came⟩ := is
    refine ⟨before ++ asks, by simp, List.forall_mem_append.2 ⟨asked, askedToo⟩, ?_⟩
    intro value ended result is
    exact List.mem_append_right _ (came value ended result is)

theorem asks_of_publish (publisher : Platform) (context : PublishContext) :
    (Action.always (Services.publish publisher context)).Does scene Deed.of?
      (Asks Except.toOption past) past s := by
  refine .always (.ask (I := Services) (.publish publisher context) ?_ fun t answer u _ _ => ?_)
  · exact ⟨[], by simp, by simp, by simp [Stand.map]⟩
  · refine ⟨(Deed.of? ⟨.publish publisher context, answer⟩).toList, rfl, ?_, ?_⟩
    · cases answer <;> simp [Deed.of?, Deed.IsAsked]
    · rintro _ ⟨⟩ result is
      cases answer with
      | ok value => cases is; exact List.mem_singleton_self _
      | error error => cases is

theorem attempt_does (engine : Engine) (job : Job) (request : Request) :
    (engine.attempt job request).Does scene Deed.of? (Asks some past) past s := by
  have nothing (now : List Deed) (t : σ) {stand : Stand (Except PublishError PublishResult)}
      (none : ∀ value, stand ≠ .ended (.ok value)) : Asks some now now stand t :=
    ⟨[], by simp, by simp, fun value ended => absurd ended (none value)⟩
  unfold attempt
  refine asks_of_outside (.persisted (Yields.ask trivial)) fun found now t => ?_
  cases found with
  | none => exact .throw (nothing _ _ (by simp))
  | some account =>
    refine asks_of_outside .ofExcept fun _ now t => ?_
    refine asks_of_outside (engine.renewal.validToken_outside account) fun token now t => ?_
    refine asks_of_outside .ofExcept fun publisher now t => ?_
    refine (asks_of_publish publisher _).bind (fun past stand last u broken is => ?_)
      fun past answer u is => ?_
    · obtain ⟨asks, rfl, asked, _⟩ := is
      exact ⟨asks, rfl, asked, by cases broken <;> simp⟩
    · obtain ⟨asks, rfl, asked, came⟩ := is
      cases answer with
      | error error => exact .throw ⟨asks, rfl, asked, by simp⟩
      | ok result =>
        refine .pure ⟨asks, rfl, asked, ?_⟩
        rintro _ ⟨⟩ _ ⟨⟩
        exact came _ rfl result rfl

end Asks

variable {anyRead : Prop} {s : Stores}

/-- Once the start was taken, the attempt and what is made of it are a course. -/
theorem goOn_does (sound : s.Sound) (engine : Engine) {job : Job} (request : Request)
    (holds : s.Holds job) {start : StartedEvent} (forJob : start.jobId = job.id) :
    (Action.always (engine.attempt job request).run >>= complete job).Does
      (Discipline.publishing anyRead).scene Deed.of? (fun deeds stand t => Course t deeds stand)
      [.announced job (.started start) true] s := by
  have meets := Yields.meets (engine.attempt_yields job request).meets (.publishing anyRead)
    (fun _ outside _ => outside.permitted _) s
  have broken {asks : List Deed} {stand : Stand (Except PublishError Execution)} {t : Stores}
      (later : s.Later t) (asked : ∀ deed ∈ asks, deed.IsAsked)
      (none : ∀ execution, stand ≠ .ended (.ok execution)) :
      Course t (.announced job (.started start) true :: asks) stand := by
    simpa using Course.accepted (holds.later later).1 forJob asked (.broken none)
  refine .always_bind ((engine.attempt_does job request).does.and_meets meets sound)
    (fun now t is => ?_) (fun now t is => ?_) fun now outcome t is => ?_
  · obtain ⟨⟨asks, rfl, asked, _⟩, _, _, later⟩ := is
    exact broken later asked (by simp)
  · obtain ⟨⟨asks, rfl, asked, _⟩, _, _, later⟩ := is
    exact broken later asked (by simp)
  · obtain ⟨⟨asks, rfl, asked, came⟩, _, soundT, later⟩ := is
    have holds : t.Holds job := holds.later later
    refine ((complete_closes soundT holds outcome).and_ensures
      (complete_ensures soundT holds outcome) soundT).weaken fun now stand u is => ?_
    obtain ⟨⟨closing, rfl, closed⟩, _, _, laterU⟩ := is
    refine .accepted (holds.later laterU).1 forJob asked (closed.mono fun complete result is => ?_)
    subst is
    exact complete result (came _ rfl result rfl)

theorem execute_does (sound : s.Sound) (engine : Engine) (request : Request) :
    (engine.execute request).Does (Discipline.publishing anyRead).scene Deed.of?
      (fun deeds stand t => Course t deeds stand) [] s := by
  have untold {α : Type} {stand : Stand (Except PublishError α)}
      {now : Stand (Except PublishError Execution)} {t : Stores} (broken : Broken stand now) :
      Course t [] now := .untold (by cases broken <;> simp)
  unfold execute
  refine (unseen_ensures sound (Ledger.openJob_silent _ request)
    (Ledger.openJob_ensures sound _ request)).bind (fun now stand last t broken is => ?_)
    fun now job t is => ?_
  · exact is.1 ▸ untold broken
  obtain ⟨rfl, opened, soundT, _⟩ := is
  have holds : t.Holds job := Stores.holds_of_find? (opened job rfl).1
  split
  · exact .pure (.untold (by simp))
  refine (unseen_ensures soundT (Ledger.start_silent job)
    (Ledger.start_ensures soundT holds)).bind (fun now stand last u broken is => ?_)
    fun now job u is => ?_
  · exact is.1 ▸ untold broken
  obtain ⟨rfl, started, soundU, _⟩ := is
  have holds : u.Holds job := (started job rfl).2
  split
  · exact .pure (.untold (by simp))
  refine (does_ensures soundU (Announcement.started_tells job)
    (Announcement.started_ensures soundU job)).bind (fun now stand last v broken is => ?_)
    fun now event v is => ?_
  · obtain ⟨tells, _, _, later⟩ := is
    cases broken with
    | underway =>
      obtain rfl : now = [] := tells
      exact .untold (by simp)
    | overflown => cases tells
    | failed error =>
      obtain ⟨event, forJob, ⟨start, rfl⟩, rfl⟩ := tells
      exact .refused (holds.later later).1 forJob
  · obtain ⟨⟨event, forJob, ⟨start, rfl⟩, rfl⟩, _, soundV, later⟩ := is
    exact goOn_does soundV engine request (holds.later later) forJob

end Engine

end Syndication
