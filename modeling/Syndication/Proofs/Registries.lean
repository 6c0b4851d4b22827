import Syndication.Publisher.Registry

namespace Syndication.Registry

variable {S : Type} {platformOf : S → Platform} {publishers : List S} {registry start : Registry S}
  {key : String}

theorem find?_eq_some_iff {name : String} {publisher : S} :
    registry.find? name = some publisher ↔
      ∃ platform, platform.name = name ∧ (platform, publisher) ∈ registry.entries := by
  constructor
  · intro found
    obtain ⟨⟨platform, _⟩, is, rfl⟩ := Option.map_eq_some_iff.1 found
    exact ⟨platform, by simpa using List.find?_some is, List.mem_of_find?_eq_some is⟩
  · rintro ⟨platform, rfl, member⟩
    obtain ⟨before, after, parts⟩ := List.append_of_mem member
    have distinct := registry.distinct
    rw [parts, List.map_append, List.nodup_append] at distinct
    have skipped : before.find? (fun entry => entry.1.name == platform.name) = none := by
      refine List.find?_eq_none.2 fun entry earlier same => ?_
      have same : entry.1 = platform := Platform.name_injective (by simpa using same)
      exact distinct.2.2 entry.1 (List.mem_map_of_mem earlier) platform (by simp) same
    simp [find?, parts, List.find?_append, skipped]

theorem resolve_eq_ok_iff {publisher : S} : registry.resolve key = .ok publisher ↔
    ∃ platform, Platform.ofKey key = .ok platform ∧
      (platform, publisher) ∈ registry.entries := by
  have found : registry.resolve key = .ok publisher ↔
      registry.find? (Platform.normalizeKey key) = some publisher := by
    unfold resolve
    split <;> simp_all
  simp only [found, find?_eq_some_iff, Platform.ofKey_eq_ok_iff]

theorem resolve_total (registry : Registry S) (key : String) :
    (∃ publisher, registry.resolve key = .ok publisher) ∨
      registry.resolve key = .error (.unknownPlatform key) := by
  unfold resolve
  split
  · exact .inl ⟨_, rfl⟩
  · exact .inr rfl

/-- The platforms of a registry, in the order in which their publishers came. -/
def keys (registry : Registry S) : List Platform := registry.entries.map Prod.fst

theorem insert_taken {platform : Platform} (taken : platform ∈ registry.keys) (publisher : S) :
    registry.insert platform publisher = .error ⟨platform⟩ :=
  dif_pos taken

theorem insert_new {platform : Platform} (new : platform ∉ registry.keys) (publisher : S) :
    ∃ more, registry.insert platform publisher = .ok more ∧
      more.entries = registry.entries ++ [(platform, publisher)] :=
  ⟨_, dif_neg new, rfl⟩

/-- The registry with the publishers of a list at its end. -/
def extend (platformOf : S → Platform) (start : Registry S) (publishers : List S) :
    Except DuplicatePlatform (Registry S) :=
  publishers.foldlM
    (fun registry publisher => registry.insert (platformOf publisher) publisher) start

theorem extend_append (before after : List S) : start.extend platformOf (before ++ after) =
    (start.extend platformOf before).bind fun more => more.extend platformOf after :=
  List.foldlM_append

theorem extend_of_nodup (distinct : (start.keys ++ publishers.map platformOf).Nodup) :
    ∃ registry, start.extend platformOf publishers = .ok registry ∧ registry.entries =
      start.entries ++ publishers.map fun publisher => (platformOf publisher, publisher) := by
  induction publishers generalizing start with
  | nil => exact ⟨start, rfl, (List.append_nil _).symm⟩
  | cons publisher rest ih =>
    have new : platformOf publisher ∉ start.keys := fun member =>
      (List.nodup_append.1 distinct).2.2 _ member _ (by simp) rfl
    obtain ⟨more, inserted, grown⟩ := insert_new new publisher
    have distinct : (more.keys ++ rest.map platformOf).Nodup := by
      simpa [keys, grown] using distinct
    obtain ⟨registry, extended, entries⟩ := ih distinct
    refine ⟨registry, ?_, by simp [entries, grown]⟩
    rw [extend, List.foldlM_cons, inserted]
    exact extended

/-- The first publisher of a list that repeats a platform is for this one: it is taken from the
start or by an earlier publisher, and all before it have platforms of their own. -/
def Repeats (platformOf : S → Platform) (taken : List Platform) (publishers : List S)
    (platform : Platform) : Prop :=
  ∃ before publisher after, publishers = before ++ publisher :: after ∧
    (taken ++ before.map platformOf).Nodup ∧ platformOf publisher = platform ∧
    platform ∈ taken ++ before.map platformOf

theorem nodup_or_repeats (platformOf : S → Platform) {taken : List Platform}
    (distinct : taken.Nodup) (publishers : List S) :
    (taken ++ publishers.map platformOf).Nodup ∨
      ∃ platform, Repeats platformOf taken publishers platform := by
  induction publishers generalizing taken with
  | nil => exact .inl (by simpa using distinct)
  | cons publisher rest ih =>
    by_cases member : platformOf publisher ∈ taken
    · exact .inr ⟨_, [], publisher, rest, rfl, by simpa using distinct, rfl, by simpa using member⟩
    · have apart : (taken ++ [platformOf publisher]).Nodup := by
        rw [List.nodup_append]
        refine ⟨distinct, by simp, fun other has last added same => member ?_⟩
        rwa [← List.mem_singleton.1 added, ← same]
      rcases ih apart with distinct | ⟨platform, before, other, after, rfl, distinct, is, repeated⟩
      · exact .inl (by simpa using distinct)
      · exact .inr ⟨platform, publisher :: before, other, after, rfl, by simpa using distinct, is,
          by simpa using repeated⟩

theorem build_of_nodup (distinct : (publishers.map platformOf).Nodup) :
    ∃ registry, build platformOf publishers = .ok registry ∧
      registry.entries = publishers.map fun publisher => (platformOf publisher, publisher) :=
  extend_of_nodup (show (empty.keys ++ _).Nodup from distinct)

theorem build_of_repeats {platform : Platform}
    (repeats : Repeats platformOf [] publishers platform) :
    build platformOf publishers = .error ⟨platform⟩ := by
  obtain ⟨before, publisher, after, rfl, distinct, rfl, member⟩ := repeats
  have distinct : ((empty : Registry S).keys ++ before.map platformOf).Nodup := distinct
  obtain ⟨registry, extended, entries⟩ := extend_of_nodup distinct
  have taken : platformOf publisher ∈ registry.keys := by
    simpa [keys, entries, empty, Function.comp_def] using member
  change empty.extend platformOf _ = _
  rw [extend_append, extended]
  change (registry.insert (platformOf publisher) publisher).bind _ = _
  rw [insert_taken taken]
  rfl

/-- A list makes a registry, with all its publishers, each for its own platform, unless one of them
repeats a platform. -/
theorem build_spec (platformOf : S → Platform) (publishers : List S) :
    ((publishers.map platformOf).Nodup ∧ ∃ registry, build platformOf publishers = .ok registry ∧
      registry.entries = publishers.map fun publisher => (platformOf publisher, publisher)) ∨
    ∃ platform, Repeats platformOf [] publishers platform ∧
      build platformOf publishers = .error ⟨platform⟩ := by
  rcases nodup_or_repeats platformOf .nil publishers with distinct | ⟨_, repeats⟩
  · exact .inl ⟨distinct, build_of_nodup distinct⟩
  · exact .inr ⟨_, repeats, build_of_repeats repeats⟩

theorem build_entries (built : build platformOf publishers = .ok registry) :
    registry.entries = publishers.map fun publisher => (platformOf publisher, publisher) := by
  rcases build_spec platformOf publishers with ⟨_, other, is, entries⟩ | ⟨platform, _, refused⟩
  · cases is.symm.trans built
    exact entries
  · cases refused.symm.trans built

theorem build_keys (built : build platformOf publishers = .ok registry) :
    registry.keys = publishers.map platformOf := by
  simp [keys, build_entries built, Function.comp_def]

theorem build_eq_error_iff {fault : DuplicatePlatform} :
    build platformOf publishers = .error fault ↔
      Repeats platformOf [] publishers fault.platform := by
  refine ⟨fun refused => ?_, build_of_repeats⟩
  rcases build_spec platformOf publishers with ⟨_, registry, built, _⟩ | ⟨platform, repeats, is⟩
  · cases built.symm.trans refused
  · cases is.symm.trans refused
    exact repeats

/-- A key that finds a publisher of a list stands for the platform of this publisher. -/
theorem of_resolve_build (built : build platformOf publishers = .ok registry) {publisher : S}
    (found : registry.resolve key = .ok publisher) :
    publisher ∈ publishers ∧ Platform.ofKey key = .ok (platformOf publisher) := by
  obtain ⟨platform, named, entry⟩ := resolve_eq_ok_iff.1 found
  rw [build_entries built] at entry
  obtain ⟨_, listed, ⟨⟩⟩ := List.mem_map.1 entry
  exact ⟨listed, named⟩

/-- When no two publishers are for one platform, those for some platform are at most one. -/
theorem filter_eq_singleton_iff (distinct : (publishers.map platformOf).Nodup)
    {platform : Platform} {publisher : S} :
    publishers.filter (platformOf · = platform) = [publisher] ↔
      publisher ∈ publishers ∧ platformOf publisher = platform := by
  constructor
  · intro only
    have member : publisher ∈ publishers.filter (platformOf · = platform) := by simp [only]
    simpa using member
  · rintro ⟨member, rfl⟩
    obtain ⟨before, after, rfl⟩ := List.append_of_mem member
    simp only [List.map_append, List.map_cons, List.nodup_append, List.nodup_cons,
      List.mem_map, List.mem_cons] at distinct
    obtain ⟨_, ⟨later, _⟩, earlier⟩ := distinct
    have none_before : before.filter (platformOf · = platformOf publisher) = [] :=
      List.filter_eq_nil_iff.2 fun other has same =>
        earlier _ ⟨other, has, rfl⟩ _ (.inl rfl) (by simpa using same)
    have none_after : after.filter (platformOf · = platformOf publisher) = [] :=
      List.filter_eq_nil_iff.2 fun other has same => later ⟨other, has, by simpa using same⟩
    simp [none_before, none_after]

theorem mem_platforms {platform : Platform} :
    platform ∈ registry.platforms ↔ platform ∈ registry.keys := by
  simp [platforms, has, keys, Platform.mem_all]

/-- A list of publishers is refused exactly if two of them are for the same platform, and the fault
names that of the first one that repeats an earlier one. Otherwise the registry finds a publisher
for a key exactly if the key stands for a platform and this is the publisher in the list for it;
every other key is reported as it was given. The platforms of the registry are those of the list,
each once and in their fixed order, and its size is that of the list. -/
theorem build_resolves (platformOf : S → Platform) (publishers : List S) :
    ((∃ fault, build platformOf publishers = .error fault) ↔
      ¬ (publishers.map platformOf).Nodup) ∧
    (∀ fault, build platformOf publishers = .error fault ↔
      ∃ before publisher after, publishers = before ++ publisher :: after ∧
        (before.map platformOf).Nodup ∧ platformOf publisher = fault.platform ∧
        ∃ earlier ∈ before, platformOf earlier = fault.platform) ∧
    ∀ registry, build platformOf publishers = .ok registry →
      (∀ key publisher, registry.resolve key = .ok publisher ↔
        ∃ platform, Platform.ofKey key = .ok platform ∧
          publishers.filter (platformOf · = platform) = [publisher]) ∧
      (∀ key, (∃ publisher, registry.resolve key = .ok publisher) ∨
        registry.resolve key = .error (.unknownPlatform key)) ∧
      (∀ platform, platform ∈ registry.platforms ↔ ∃ publisher ∈ publishers,
        platformOf publisher = platform) ∧
      registry.platforms.Sublist Platform.all ∧ registry.platforms.Nodup ∧
      registry.size = publishers.length := by
  refine ⟨?_, fun fault => ?_, fun registry built => ?_⟩
  · rcases build_spec platformOf publishers with ⟨distinct, registry, built, _⟩ | ⟨_, repeats, is⟩
    · simp [built, distinct]
    · obtain ⟨before, publisher, after, rfl, _, rfl, member⟩ := repeats
      refine ⟨fun _ distinct => ?_, fun _ => ⟨_, is⟩⟩
      rw [List.map_append, List.nodup_append] at distinct
      exact distinct.2.2 _ (by simpa using member) _ (by simp) rfl
  · simp [build_eq_error_iff, Repeats]
  · have distinct : (publishers.map platformOf).Nodup := build_keys built ▸ registry.distinct
    refine ⟨fun key publisher => ?_, resolve_total registry, fun platform => ?_,
      List.filter_sublist, List.Pairwise.sublist List.filter_sublist (by decide), ?_⟩
    · simp only [resolve_eq_ok_iff, build_entries built, filter_eq_singleton_iff distinct,
        List.mem_map, Prod.mk.injEq]
      grind
    · simp [mem_platforms, build_keys built]
    · simp [size, build_entries built]

/-- Two publishers that are not given in the order of platforms: the second one is found by a key
with blanks and small letters. -/
theorem build_resolves_two : ∃ registry, build id [.facebook, .youtube] = .ok registry ∧
    registry.resolve " YouTube\u2003" = .ok .youtube ∧
    registry.resolve "LINKEDIN" = .error (.unknownPlatform "LINKEDIN") ∧ registry.size = 2 := by
  have distinct : ([Platform.facebook, .youtube].map id).Nodup := by decide
  obtain ⟨registry, built, _⟩ := build_of_nodup distinct
  obtain ⟨_, _, results⟩ := build_resolves id [.facebook, .youtube]
  obtain ⟨resolves, total, _, _, _, size⟩ := results registry built
  have found : Platform.ofKey " YouTube\u2003" = .ok .youtube :=
    Platform.ofKey_eq_ok_iff.2 (by decide +kernel)
  refine ⟨registry, built, (resolves _ _).2 ⟨.youtube, found, by decide⟩, ?_, size⟩
  refine (total "LINKEDIN").resolve_left ?_
  rintro ⟨publisher, is⟩
  obtain ⟨platform, named, only⟩ := (resolves _ _).1 is
  obtain rfl : Platform.linkedin = platform :=
    Platform.name_injective ((show _ = Platform.normalizeKey "LINKEDIN" by decide +kernel).trans
      (Platform.ofKey_eq_ok_iff.1 named).symm)
  cases only

end Syndication.Registry
