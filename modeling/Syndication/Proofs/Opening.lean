import Syndication.Proofs.Deeds

namespace Syndication

namespace Action

open Program

variable {I : Interface} {α β : Type} {m n : Nat}

theorem within_bind {x : Action I α} {f : α → Action I β} (first : x.run.Within m)
    (second : ∀ value, (f value).run.Within n) : (x >>= f).run.Within (m + n) := by
  rw [run_bind]
  refine first.bind fun outcome => ?_
  cases outcome with
  | ok value => exact second value
  | error error => exact .done

theorem within_always {p : Program I α} (within : p.Within n) : (always p).run.Within n :=
  within.bind (n := 0) fun _ => .done

theorem within_persisted {p : Program I (Except ServiceFault α)} (within : p.Within n) :
    (persisted p).run.Within n := within.bind (n := 0) fun _ => .done

theorem within_ofExcept {outcome : Except PublishError α} :
    (ofExcept outcome : Action I α).run.Within 0 := .done

end Action

/-- What opening a job leaves behind: it draws an identifier, and its insertion is accepted or
refused. -/
inductive Draft where
  | drew (id : Uuid)
  | inserted (job : Job)
  | refused (job : Job)

namespace Draft

def ofRecord? : Records.Exchange → Option Draft
  | ⟨.freshId, id⟩ => some (.drew id)
  | ⟨.insertJob job, .ok _⟩ => some (.inserted job)
  | ⟨.insertJob job, .error _⟩ => some (.refused job)
  | _ => none

def of? : Services.Exchange → Option Draft
  | ⟨.records c, answer⟩ => ofRecord? ⟨c, answer⟩
  | _ => none

/-- The drafts of opening a job for the request, up to some point. -/
inductive Of (budget : UInt32) (request : Request) : List Draft → Prop
  | nothing : Of budget request []
  | drew {id} : Of budget request [.drew id]
  | inserted {id now} :
      Of budget request [.drew id, .inserted (Job.ofRequest request budget ⟨id⟩ now)]
  | refused {id now} :
      Of budget request [.drew id, .refused (Job.ofRequest request budget ⟨id⟩ now)]

end Draft

/-- Some row has the key of the job. -/
def Stores.KeyTaken (s : Stores) (job : Job) : Prop :=
  ∃ key, job.idempotencyKey = some key ∧ ∃ row ∈ s.jobs.rows, row.idempotencyKey = some key

/-- Records that work, among others that insert rows. No insertion is refused but for its key. -/
def Scene.opening : Scene Records Stores where
  around s c a t := s.Works c a t ∧ ∀ job fault,
    (⟨c, a⟩ : Records.Exchange) = ⟨.insertJob job, .error fault⟩ → s.KeyTaken job
  moves s t := s.jobs.rows <+: t.jobs.rows

namespace Ledger

open Syndication.Action Program

section Within

theorem yieldTo_within (request : Request) (key : String) (fault : ServiceFault) :
    (yieldTo request key fault).run.Within 1 := by
  unfold yieldTo
  refine within_bind (n := 0) (within_persisted .ask) fun found => ?_
  cases found with
  | some winner => exact .done
  | none => exact .done

theorem insertNew_within (budget : UInt32) (request : Request) :
    (insertNew budget request).run.Within 4 := by
  unfold insertNew
  refine within_bind (n := 3) (within_always .ask) fun id => ?_
  refine within_bind (n := 2) (within_always .ask) fun now => ?_
  refine within_bind (n := 1) (within_always .ask) fun answer => ?_
  cases answer with
  | ok _ => exact .done
  | error fault =>
    simp only
    split
    · split
      · exact yieldTo_within request _ fault
      · exact .done
    · exact .done

/-- A job is opened with at most five calls. -/
theorem openJob_within (budget : UInt32) (request : Request) :
    (openJob budget request).run.Within 5 := by
  unfold openJob
  refine within_bind (n := 5) within_ofExcept fun _ => ?_
  split
  · exact (insertNew_within budget request).mono (by decide)
  · refine within_bind (n := 4) (within_persisted .ask) fun found => ?_
    cases found with
    | some existing => exact .done
    | none => exact insertNew_within budget request

end Within

section Drafts

variable {σ : Type} {scene : Scene Records σ} {s : σ} {budget : UInt32} {request : Request}

theorem yieldTo_undrafted (request : Request) (key : String) (fault : ServiceFault)
    (past : List Draft) : (yieldTo request key fault).Does scene Draft.ofRecord?
      (fun now _ _ => now = past) past s := by
  refine CallsOnly.does ?_
  unfold yieldTo
  refine .bind (.persisted (Yields.ask fun _ => rfl)) fun found => ?_
  cases found with
  | some winner => exact .ofExcept
  | none => exact .throw

theorem insertNew_drafts : (insertNew budget request).Does scene Draft.ofRecord?
    (fun drafts _ _ => Draft.Of budget request drafts) [] s := by
  unfold insertNew
  have draws : Records.freshId.Does scene Draft.ofRecord? (fun drafts stand _ =>
      Draft.Of budget request drafts ∧ ∀ id, stand = .ended id → drafts = [.drew id]) [] s := by
    refine .ask (I := Records) .freshId ⟨.nothing, by simp⟩ fun t id u _ _ => ⟨.drew, ?_⟩
    rintro _ ⟨⟩
    rfl
  refine .always_bind draws (fun _ _ is => is.1) (fun _ _ is => is.1) fun drafts id t is => ?_
  obtain rfl := is.2 id rfl
  have reads : Records.now.Does scene Draft.ofRecord? (fun drafts _ _ => drafts = [.drew id])
      [.drew id] t := .ask (I := Records) .now rfl fun _ _ _ _ _ => rfl
  refine .always_bind reads (fun _ _ is => is ▸ .drew) (fun _ _ is => is ▸ .drew)
    fun drafts now u is => ?_
  subst is
  have inserts : (Records.insertJob (Job.ofRequest request budget ⟨id⟩ now)).Does scene
      Draft.ofRecord? (fun drafts _ _ => Draft.Of budget request drafts) [.drew id] u := by
    refine .ask (I := Records) (.insertJob _) .drew fun t answer v _ _ => ?_
    cases answer with
    | ok _ => exact .inserted
    | error fault => exact .refused
  refine .always_bind inserts (fun _ _ is => is) (fun _ _ is => is) fun drafts answer v is => ?_
  cases answer with
  | ok _ => exact .pure is
  | error fault =>
    simp only
    split
    · split
      · exact (yieldTo_undrafted request _ fault drafts).weaken fun _ _ _ same => same ▸ is
      · exact .throw is
    · exact .throw is

/-- Opening a job draws at most one identifier and makes at most one insertion, of a job with that
identifier. -/
theorem openJob_drafts : (openJob budget request).Does scene Draft.ofRecord?
    (fun drafts _ _ => Draft.Of budget request drafts) [] s := by
  unfold openJob
  have checks : (Action.ofExcept request.validate : Action Records Unit).Does scene Draft.ofRecord?
      (fun drafts _ _ => drafts = []) [] s := .ofExcept rfl
  refine checks.bind (fun _ _ _ _ _ is => is ▸ .nothing) fun drafts _ t is => ?_
  subst is
  split
  · exact insertNew_drafts
  · rename_i key _
    have looks : (Action.persisted (Records.findJobByKey key)).Does scene Draft.ofRecord?
        (fun drafts _ _ => drafts = []) [] t :=
      CallsOnly.does (.persisted (Yields.ask fun _ => rfl))
    refine looks.bind (fun _ _ _ _ _ is => is ▸ .nothing) fun drafts found u is => ?_
    subst is
    cases found with
    | some existing => exact .ofExcept .nothing
    | none => exact insertNew_drafts

end Drafts

/-- What comes of opening a job among others: the key stands for a row, which decides, or the job of
a request without a key was inserted. -/
def Settles (request : Request) (drafts : List Draft) :
    Stand (Except PublishError Job) → Stores → Prop
  | .underway, _ => True
  | .overflown, _ => False
  | .ended outcome, s => match request.idempotencyKey with
    | some key => ∃ row ∈ s.jobs.rows, row.idempotencyKey = some key ∧
        outcome = reuse row request key
    | none => ∃ id job, outcome = .ok job ∧ drafts = [.drew id, .inserted job]

section Settles

variable {s : Stores} {budget : UInt32} {request : Request} {past : List Draft} {key : String}

theorem find_of_key {row : Job} (member : row ∈ s.jobs.rows)
    (has : row.idempotencyKey = some key) : ∃ other ∈ s.jobs.rows,
      other.idempotencyKey = some key ∧ s.jobs.findByKey? key = some other := by
  have known : (s.jobs.findByKey? key).isSome = true :=
    List.find?_isSome.2 ⟨row, member, by simpa using has⟩
  obtain ⟨other, found⟩ := Option.isSome_iff_exists.1 known
  exact ⟨other, List.mem_of_find?_eq_some found, by simpa using List.find?_some found, found⟩

/-- A lookup of a key finds what is stored under it by then. -/
theorem findJobByKey_settles (key : String) :
    (Action.persisted (Records.findJobByKey key)).Does .opening Draft.ofRecord?
      (fun drafts stand t => drafts = past ∧ s.jobs.rows <+: t.jobs.rows ∧ (stand = .underway ∨
        stand = .ended (.ok (t.jobs.findByKey? key)))) past s := by
  refine .persisted (.ask (I := Records) (.findJobByKey key)
    ⟨rfl, List.prefix_refl _, .inl rfl⟩ fun t answer u moved answered => ?_)
  obtain ⟨⟨found, faultless⟩, _⟩ := answered
  cases answer with
  | ok row =>
    obtain ⟨rfl, rfl⟩ := found
    exact ⟨List.append_nil past, moved, .inr rfl⟩
  | error fault => cases faultless

/-- A row with the key stays where it is, so that the second lookup comes to a row. -/
theorem yieldTo_settles (has : request.idempotencyKey = some key) {fault : ServiceFault}
    {row : Job} (member : row ∈ s.jobs.rows) (taken : row.idempotencyKey = some key) :
    (yieldTo request key fault).Does .opening Draft.ofRecord? (Settles request) past s := by
  unfold yieldTo
  refine (findJobByKey_settles key).bind (fun drafts stand now t broken is => ?_)
    fun drafts found t is => ?_
  · obtain ⟨_, _, rfl | rfl⟩ := is
    · cases broken
      trivial
    · cases broken
  · obtain ⟨rfl, grown, impossible | same⟩ := is
    · cases impossible
    cases same
    obtain ⟨winner, inRows, has', found⟩ := find_of_key (grown.subset member) taken
    rw [found]
    refine .ofExcept ?_
    simp only [Settles, has]
    exact ⟨winner, inRows, has', rfl⟩

theorem insertNew_settles :
    (insertNew budget request).Does .opening Draft.ofRecord? (Settles request) [] s := by
  unfold insertNew
  have draws : Records.freshId.Does .opening Draft.ofRecord? (fun drafts stand _ =>
      stand = .underway ∨ ∃ id, stand = .ended id ∧ drafts = [.drew id]) [] s :=
    .ask (I := Records) .freshId (.inl rfl) fun _ id _ _ _ => .inr ⟨id, rfl, rfl⟩
  refine .always_bind draws (fun _ _ _ => trivial) (fun _ _ is => by simp at is)
    fun drafts id t is => ?_
  obtain rfl : drafts = [.drew id] := by simpa using is
  have reads : Records.now.Does .opening Draft.ofRecord? (fun drafts stand _ =>
      stand = .underway ∨ drafts = [.drew id] ∧ stand ≠ .overflown) [.drew id] t :=
    .ask (I := Records) .now (.inl rfl) fun _ _ _ _ _ => .inr ⟨rfl, by simp⟩
  refine .always_bind reads (fun _ _ _ => trivial) (fun _ _ is => by simp at is)
    fun drafts now u is => ?_
  obtain rfl : drafts = [.drew id] := by simpa using is
  let job := Job.ofRequest request budget ⟨id⟩ now
  have inserts : (Records.insertJob job).Does .opening Draft.ofRecord? (fun drafts stand v =>
      stand = .underway ∨ stand = .ended (.ok ()) ∧ drafts = [.drew id, .inserted job] ∧
        job ∈ v.jobs.rows ∨ ∃ fault, stand = .ended (.error fault) ∧ fault.isDuplicate = true ∧
          v.KeyTaken job) [.drew id] u := by
    refine .ask (I := Records) (.insertJob job) (.inl rfl) fun t answer v moved answered => ?_
    obtain ⟨⟨written, faultless⟩, onlyKey⟩ := answered
    cases answer with
    | ok _ =>
      obtain ⟨jobs, inserted, rfl⟩ := written
      exact .inr (.inl ⟨rfl, rfl, by simp [(JobStore.insert_eq_ok inserted).1]⟩)
    | error fault =>
      obtain rfl := written
      exact .inr (.inr ⟨fault, rfl, (JobStore.insert_eq_error faultless).1, onlyKey job fault rfl⟩)
  refine .always_bind inserts (fun _ _ _ => trivial) (fun drafts v is => ?_)
    fun drafts answer v is => ?_
  · rcases is with impossible | ⟨impossible, _⟩ | ⟨_, impossible, _⟩ <;> cases impossible
  rcases is with impossible | ⟨same, rfl, member⟩ | ⟨fault, same, duplicate, key, has, row, member,
    taken⟩
  · cases impossible
  · cases same
    refine .pure ?_
    cases has : request.idempotencyKey with
    | none =>
      simp only [Settles, has]
      exact ⟨id, job, rfl, rfl⟩
    | some key =>
      simp only [Settles, has]
      have fits : job.matchesRequest request = true := Job.matchesRequest_of_work_eq rfl
      have reused : reuse job request key = .ok job := by simp [reuse, fits]
      exact ⟨job, member, has, reused.symm⟩
  · cases same
    have has : request.idempotencyKey = some key := has
    simp only [has, duplicate, if_true]
    exact yieldTo_settles has member taken

/-- Among others that open jobs, a valid request with a key comes to the row that the key stands
for, and one without a key inserts a job. -/
theorem openJob_settles (valid : request.validate = .ok ()) :
    (openJob budget request).Does .opening Draft.ofRecord? (Settles request) [] s := by
  unfold openJob
  have checks : (Action.ofExcept request.validate : Action Records Unit).Does .opening
      Draft.ofRecord? (fun drafts stand _ => drafts = [] ∧ stand = .ended (.ok ())) [] s :=
    .ofExcept ⟨rfl, congrArg _ valid⟩
  refine checks.bind (fun drafts stand now t broken is => ?_) fun drafts _ t is => ?_
  · obtain ⟨_, rfl⟩ := is
    cases broken
  obtain ⟨rfl, _⟩ := is
  split
  · exact insertNew_settles
  · rename_i key has
    refine (findJobByKey_settles key).bind (fun drafts stand now u broken is => ?_)
      fun drafts found u is => ?_
    · obtain ⟨_, _, rfl | rfl⟩ := is
      · cases broken
        trivial
      · cases broken
    obtain ⟨rfl, _, impossible | same⟩ := is
    · cases impossible
    cases same
    cases found : u.jobs.findByKey? key with
    | none => exact insertNew_settles
    | some existing =>
      refine .ofExcept ?_
      simp only [Settles, has]
      exact ⟨existing, List.mem_of_find?_eq_some found, by simpa using List.find?_some found, rfl⟩

end Settles

end Ledger

end Syndication
