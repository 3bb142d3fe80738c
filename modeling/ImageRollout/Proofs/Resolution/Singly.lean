import ImageRollout.Proofs.Resolution.Batch
import ImageRollout.Proofs.Store.Versions

/-! Keyed batches over the store in memory, image type by image type. Under a key the version of a type
    depends only on the plans and the versions of that type (`Memory.keyedVersion?`), so a lenient batch
    comes to what its types come to when each is resolved alone. -/

namespace ImageRollout

namespace Memory

/-- What the active plan of an image type makes of a key. -/
def keyedOutcome (m : Memory) (key : Key) (imageType : String) : Outcome :=
  match m.active? imageType with
  | some p => judge p.entries key.draw
  | none => .noPlan

/-- The version that workloads with a key get for an image type, if there is one for them. -/
def keyedVersion? (m : Memory) (key : Key) (imageType : String) : Option String :=
  (m.keyedOutcome key imageType).version?.or ((m.newestActive? imageType).map Registration.version)

/-- The image types without a version under a key. -/
def missingUnder (m : Memory) (key : Key) (requested : List String) : List String :=
  requested.filter fun imageType => (m.keyedVersion? key imageType).isNone

/-- Those of them whose plan the key shows to be corrupt. -/
def corruptUnder (m : Memory) (key : Key) (requested : List String) : List String :=
  Names.within (requested.filter fun imageType => (m.keyedOutcome key imageType).violation?.isSome)
    (m.missingUnder key requested)

/-- What image types come to under a key. -/
def keyedResult (m : Memory) (key : Key) (requested : List String) : Except Failure Versions :=
  if (m.missingUnder key requested).isEmpty then
    .ok (requested.filterMap fun imageType =>
      (m.keyedVersion? key imageType).map fun version => (imageType, version))
  else .error (.domain (.unresolved (m.missingUnder key requested) (m.corruptUnder key requested)))

theorem keyedVersion?_congr {m m' : Memory} {imageType : String} (hplans : m'.plansOf imageType = m.plansOf imageType)
    (hversions : m'.versionsOf imageType = m.versionsOf imageType) (key : Key) :
    m'.keyedVersion? key imageType = m.keyedVersion? key imageType := by
  unfold keyedVersion? keyedOutcome active?
  rw [newestActive?_eq, newestActive?_eq, hplans, hversions]

/-! ### What the store answers -/

theorem plan?_activePlans (m : Memory) {imageTypes : List String} {imageType : String} (h : imageType ∈ imageTypes) :
    (m.activePlans imageTypes).plan? imageType = (m.active? imageType).map StoredPlan.plan := by
  have hlookup := Names.lookup_filterMap (fun name => (m.active? name).map fun p => some p.plan) imageType
    (Names.ordered imageTypes)
  simp only [Option.map_map, Function.comp_def, Names.mem_ordered, h, if_true] at hlookup
  unfold PlanAnswer.plan? activePlans
  rw [hlookup]
  cases m.active? imageType <;> rfl

theorem latest?_latestActive (m : Memory) {imageTypes : List String} {imageType : String} (h : imageType ∈ imageTypes) :
    latest? (m.latestActive imageTypes) imageType = (m.newestActive? imageType).map Registration.version := by
  -- Each row is the only one for its type.
  have hrow : ∀ row ∈ m.latestActive imageTypes, row.imageType = imageType →
      (m.newestActive? imageType).map Registration.version = some row.version := by
    rintro row hmem rfl
    obtain ⟨name, -, hname⟩ := List.mem_filterMap.mp hmem
    obtain ⟨r, hr, rfl⟩ := Option.map_eq_some_iff.mp hname
    simp [hr]
  cases hlatest : latest? (m.latestActive imageTypes) imageType with
  | some version =>
    obtain ⟨before, after, hsplit, -⟩ := latest?_eq_some_iff.mp hlatest
    exact (hrow ⟨imageType, version⟩ (by simp [hsplit]) rfl).symm
  | none =>
    cases hnewest : m.newestActive? imageType with
    | none => rfl
    | some r =>
      have hmem : ⟨imageType, r.version⟩ ∈ m.latestActive imageTypes :=
        List.mem_filterMap.mpr ⟨imageType, Names.mem_ordered.mpr h, by rw [hnewest]; rfl⟩
      exact absurd rfl (latest?_eq_none_iff.mp hlatest _ hmem)

/-! ### What a keyed batch comes to -/

variable {rules : Rules}

theorem outcomeIn_activePlans (m : Memory) (key : Key) (g : Generator) {requested : List String} {imageType : String}
    (h : imageType ∈ requested) :
    outcomeIn (.keyed key) (m.activePlans requested) requested g imageType = m.keyedOutcome key imageType := by
  have hplan := m.plan?_activePlans h
  unfold keyedOutcome
  cases hactive : m.active? imageType with
  | some p =>
    rw [hactive] at hplan
    exact outcomeIn_keyed key _ requested g hplan
  | none =>
    rw [hactive] at hplan
    exact outcomeIn_of_no_plan _ hplan requested g

theorem result_resolveAll_keyed (hlenient : rules.strict = false) (htime : rules.timeout.isOver = false) (key : Key)
    (b : Backing Memory) (imageTypes : List String) :
    ((resolveAll source rules imageTypes (some (.keyed key))).run b).result =
      b.store.keyedResult key (Names.ordered imageTypes) := by
  generalize houtcome : outcomeIn (.keyed key) (b.store.activePlans (Names.ordered imageTypes))
    (Names.ordered imageTypes) b.generator = outcome
  have hmine : ∀ imageType ∈ Names.ordered imageTypes, outcome imageType = b.store.keyedOutcome key imageType := by
    intro imageType hmem
    rw [← houtcome]
    exact b.store.outcomeIn_activePlans key b.generator hmem
  have hanswered : Answered source rules imageTypes (.keyed key) b (b.store.activePlans (Names.ordered imageTypes))
      (some (b.store.latestActive (unplanned imageTypes outcome))) := by
    refine ⟨htime, rfl, fun remaining hremaining _ => ?_⟩
    rw [houtcome] at hremaining
    subst hremaining
    rfl
  have hnone : ∀ imageType ∈ imageTypes, (outcome imageType).failure? rules.strict imageType = none := by
    intro imageType _
    rw [← houtcome, failure?_outcomeIn (Strategy.inRange_keyed key _), hlenient]
    rfl
  have hversion : ∀ imageType ∈ Names.ordered imageTypes,
      versionFor? outcome (b.store.latestActive (unplanned imageTypes outcome)) imageType =
        b.store.keyedVersion? key imageType := by
    intro imageType hmem
    unfold versionFor? keyedVersion?
    rw [hmine imageType hmem]
    cases hselected : (b.store.keyedOutcome key imageType).version? with
    | some version => rfl
    | none =>
      -- A type without a version from its plan is one of those that the store is asked about.
      have hunplanned : imageType ∈ unplanned imageTypes outcome :=
        List.mem_filter.mpr ⟨hmem, by rw [hmine imageType hmem, hselected]; rfl⟩
      rw [b.store.latest?_latestActive hunplanned]
  have hmissing := List.filter_congr fun imageType hmem => congrArg Option.isNone (hversion imageType hmem)
  have hcorrupt := List.filter_congr fun imageType hmem =>
    congrArg (fun o : Outcome => o.violation?.isSome) (hmine imageType hmem)
  have hfound := List.filterMap_congr fun imageType hmem =>
    congrArg (Option.map fun version => (imageType, version)) (hversion imageType hmem)
  rw [result_resolveAll_of_no_failure hanswered houtcome.symm hnone]
  dsimp only [Option.getD_some]
  rw [hmissing, hcorrupt, hfound]
  rfl

/-! ### Many image types and one -/

section

variable {m : Memory} {key : Key} {requested : List String} {imageType : String}

theorem mem_missingUnder :
    imageType ∈ m.missingUnder key requested ↔ imageType ∈ requested ∧ m.keyedVersion? key imageType = none := by
  simp [missingUnder]

theorem mem_corruptUnder :
    imageType ∈ m.corruptUnder key requested ↔
      imageType ∈ m.missingUnder key requested ∧ (m.keyedOutcome key imageType).violation?.isSome := by
  simp only [corruptUnder, Names.mem_within, List.mem_filter, mem_missingUnder]
  tauto

theorem isEmpty_missingUnder_iff :
    (m.missingUnder key requested).isEmpty ↔ ∀ imageType ∈ requested, m.keyedVersion? key imageType ≠ none := by
  rw [List.isEmpty_iff, List.eq_nil_iff_forall_not_mem]
  simp only [mem_missingUnder, not_and, ne_eq]

theorem keyedResult_eq_ok_iff {versions : Versions} :
    m.keyedResult key requested = .ok versions ↔
      (∀ imageType ∈ requested, m.keyedVersion? key imageType ≠ none) ∧
        versions = requested.filterMap fun imageType =>
          (m.keyedVersion? key imageType).map fun version => (imageType, version) := by
  rw [← isEmpty_missingUnder_iff]
  unfold keyedResult
  split
  · rename_i hempty
    rw [Except.ok.injEq, eq_comm]
    exact (and_iff_right hempty).symm
  · rename_i hne
    exact ⟨nofun, fun h => absurd h.1 hne⟩

theorem keyedResult_eq_error_iff {f : Failure} :
    m.keyedResult key requested = .error f ↔
      (∃ imageType ∈ requested, m.keyedVersion? key imageType = none) ∧
        f = .domain (.unresolved (m.missingUnder key requested) (m.corruptUnder key requested)) := by
  have hsome : (∃ imageType ∈ requested, m.keyedVersion? key imageType = none) ↔
      ¬(m.missingUnder key requested).isEmpty := by
    rw [isEmpty_missingUnder_iff]
    push Not
    rfl
  rw [hsome]
  unfold keyedResult
  split
  · rename_i hempty
    exact ⟨nofun, fun h => absurd hempty h.1⟩
  · rename_i hne
    rw [Except.error.injEq, eq_comm]
    exact (and_iff_right hne).symm

theorem mem_versions_iff {versions : Versions} (h : m.keyedResult key requested = .ok versions) {version : String} :
    (imageType, version) ∈ versions ↔ imageType ∈ requested ∧ m.keyedVersion? key imageType = some version := by
  obtain ⟨-, rfl⟩ := keyedResult_eq_ok_iff.mp h
  exact Names.mem_filterMap (m.keyedVersion? key)

theorem exists_ok_iff :
    (∃ versions, m.keyedResult key requested = .ok versions) ↔
      ∀ imageType ∈ requested, m.keyedVersion? key imageType ≠ none := by
  simp only [keyedResult_eq_ok_iff, exists_and_left, exists_eq, and_true]

theorem exists_error_singleton_iff :
    (∃ f, m.keyedResult key [imageType] = .error f) ↔ m.keyedVersion? key imageType = none := by
  simp [keyedResult_eq_error_iff]

theorem exists_version_singleton_iff {other version : String} :
    (∃ single, m.keyedResult key [other] = .ok single ∧ (imageType, version) ∈ single) ↔
      imageType = other ∧ m.keyedVersion? key imageType = some version := by
  constructor
  · rintro ⟨single, hok, hmem⟩
    obtain ⟨hother, hversion⟩ := (mem_versions_iff hok).mp hmem
    exact ⟨List.mem_singleton.mp hother, hversion⟩
  · rintro ⟨rfl, hversion⟩
    obtain ⟨single, hok⟩ := exists_ok_iff.mpr fun t (ht : t ∈ [imageType]) => by
      rw [List.mem_singleton.mp ht, hversion]
      exact Option.some_ne_none version
    exact ⟨single, hok, (mem_versions_iff hok).mpr ⟨List.mem_singleton_self _, hversion⟩⟩

theorem exists_corrupt_singleton_iff {other : String} :
    (∃ alone among, m.keyedResult key [other] = .error (.domain (.unresolved alone among)) ∧ imageType ∈ among) ↔
      imageType ∈ m.corruptUnder key [other] := by
  constructor
  · rintro ⟨alone, among, herror, hmem⟩
    obtain ⟨-, heq⟩ := keyedResult_eq_error_iff.mp herror
    cases heq
    exact hmem
  · intro hmem
    obtain ⟨hother, hnone⟩ := mem_missingUnder.mp (mem_corruptUnder.mp hmem).1
    exact ⟨_, _, keyedResult_eq_error_iff.mpr ⟨⟨imageType, hother, hnone⟩, rfl⟩, hmem⟩

end

end Memory

/-- How a batch under a key ends over a store in memory. -/
def keyedBatch (rules : Rules) (key : Key) (b : Backing Memory) (imageTypes : List String) : Except Failure Versions :=
  ((resolveAll Memory.source rules imageTypes (some (.keyed key))).run b).result

theorem result_resolveAll_of_over {σ : Type} (source : Source σ) {rules : Rules} (h : rules.timeout.isOver = true)
    {imageTypes : List String} (hne : imageTypes ≠ []) (strategy : Option Strategy) (b : Backing σ) :
    ((resolveAll source rules imageTypes strategy).run b).result =
      .error (.domain (.storeTimedOut (StoreCall.activePlans imageTypes).name rules.timeout)) := by
  have hcall : ∀ answer : Action σ (Reply PlanAnswer),
      ((callStore rules.timeout (.activePlans (Names.ordered imageTypes)) answer).run b).result =
        .error (.domain (.storeTimedOut (StoreCall.activePlans imageTypes).name rules.timeout)) := by
    intro answer
    rw [callStore_of_over h]
    rfl
  rw [resolveAll_eq source rules hne, Action.run_bind_error (hcall _)]

/-- Without time only a request for nothing succeeds. -/
theorem keyedBatch_of_over {rules : Rules} (h : rules.timeout.isOver = true) (key : Key) (b : Backing Memory)
    (imageTypes : List String) (versions : Versions) :
    keyedBatch rules key b imageTypes = .ok versions ↔ imageTypes = [] ∧ versions = [] := by
  unfold keyedBatch
  by_cases hne : imageTypes = []
  · subst hne
    simp [resolveAll, eq_comm]
  · rw [result_resolveAll_of_over Memory.source h hne]
    constructor
    · intro hok
      cases hok
    · intro hnil
      exact absurd hnil.1 hne

/-- A lenient batch under a key comes to what its image types come to one by one. It succeeds if each of
    them does, and then it unites their versions; else it names those that fail, and of these the ones
    with a corrupt plan. So neither other types in the request nor other types in the store change the
    version of a type. -/
theorem batch_unites_singles {rules : Rules} (hlenient : rules.strict = false) (key : Key) (b : Backing Memory)
    (imageTypes : List String) :
    ((∃ versions, keyedBatch rules key b imageTypes = .ok versions) ↔
      ∀ imageType ∈ imageTypes, ∃ single, keyedBatch rules key b [imageType] = .ok single) ∧
    (∀ versions, keyedBatch rules key b imageTypes = .ok versions →
      Names.Ascending (versions.map Prod.fst) ∧
      ∀ pair, pair ∈ versions ↔
        ∃ imageType ∈ imageTypes, ∃ single, keyedBatch rules key b [imageType] = .ok single ∧ pair ∈ single) ∧
    (rules.timeout.isOver = false → ∀ f, keyedBatch rules key b imageTypes = .error f →
      ∃ missing corrupt, f = .domain (.unresolved missing corrupt) ∧
        Names.Ascending missing ∧ Names.Ascending corrupt ∧
        (∀ imageType, imageType ∈ missing ↔
          imageType ∈ imageTypes ∧ ∃ g, keyedBatch rules key b [imageType] = .error g) ∧
        ∀ imageType, imageType ∈ corrupt ↔
          ∃ other ∈ imageTypes, ∃ alone among,
            keyedBatch rules key b [other] = .error (.domain (.unresolved alone among)) ∧ imageType ∈ among) ∧
    ∀ (b' : Backing Memory) (others : List String) (imageType : String), imageType ∈ imageTypes → imageType ∈ others →
      b'.store.plansOf imageType = b.store.plansOf imageType →
      b'.store.versionsOf imageType = b.store.versionsOf imageType →
      ∀ versions versions', keyedBatch rules key b imageTypes = .ok versions →
        keyedBatch rules key b' others = .ok versions' →
          ∃ version, (imageType, version) ∈ versions ∧ (imageType, version) ∈ versions' := by
  cases htime : rules.timeout.isOver with
  | true =>
    simp only [keyedBatch_of_over htime]
    refine ⟨by simp [List.eq_nil_iff_forall_not_mem], ?_, nofun, ?_⟩
    · rintro versions ⟨rfl, rfl⟩
      simp
    · rintro b' others imageType hmem - - - versions versions' ⟨rfl, -⟩
      cases hmem
  | false =>
    have hbatch : ∀ (c : Backing Memory) types,
        keyedBatch rules key c types = c.store.keyedResult key (Names.ordered types) :=
      Memory.result_resolveAll_keyed hlenient htime key
    simp only [hbatch, Names.ordered_singleton]
    refine ⟨?_, fun versions hok => ⟨?_, fun ⟨imageType, version⟩ => ?_⟩, fun _ f herror => ?_, ?_⟩
    · simp only [Memory.exists_ok_iff, Names.mem_ordered, List.mem_singleton, forall_eq]
    · obtain ⟨-, rfl⟩ := Memory.keyedResult_eq_ok_iff.mp hok
      rw [Names.keys_filterMap]
      exact (Names.ascending_ordered imageTypes).filter _
    · simp only [Memory.mem_versions_iff hok, Memory.exists_version_singleton_iff, Names.mem_ordered]
      constructor
      · rintro ⟨hmem, hversion⟩
        exact ⟨imageType, hmem, rfl, hversion⟩
      · rintro ⟨_, hmem, rfl, hversion⟩
        exact ⟨hmem, hversion⟩
    · obtain ⟨-, rfl⟩ := Memory.keyedResult_eq_error_iff.mp herror
      have hmissing : Names.Ascending (b.store.missingUnder key (Names.ordered imageTypes)) :=
        (Names.ascending_ordered imageTypes).filter _
      refine ⟨_, _, rfl, hmissing, ((Names.ascending_ordered imageTypes).filter _).within _, fun imageType => ?_,
        fun imageType => ?_⟩
      · rw [Memory.exists_error_singleton_iff, Memory.mem_missingUnder, Names.mem_ordered]
      · simp only [Memory.exists_corrupt_singleton_iff, Memory.mem_corruptUnder, Memory.mem_missingUnder,
          Names.mem_ordered, List.mem_singleton]
        constructor
        · rintro ⟨⟨hmem, hnone⟩, hviolation⟩
          exact ⟨imageType, hmem, ⟨rfl, hnone⟩, hviolation⟩
        · rintro ⟨_, hmem, ⟨rfl, hnone⟩, hviolation⟩
          exact ⟨⟨hmem, hnone⟩, hviolation⟩
    · intro b' others imageType hmem hmem' hplans hversions versions versions' hok hok'
      have hsome := Memory.exists_ok_iff.mp ⟨versions, hok⟩ imageType (Names.mem_ordered.mpr hmem)
      obtain ⟨version, hversion⟩ := Option.ne_none_iff_exists'.mp hsome
      have hversion' := (Memory.keyedVersion?_congr hplans hversions key).trans hversion
      exact ⟨version, (Memory.mem_versions_iff hok).mpr ⟨Names.mem_ordered.mpr hmem, hversion⟩,
        (Memory.mem_versions_iff hok').mpr ⟨Names.mem_ordered.mpr hmem', hversion'⟩⟩

/-- A store with a valid plan, a corrupt one, and a type that has only a version. -/
def mixedMemory : Memory where
  types := [("hive", none), ("presto", none), ("spark", none)]
  versions := [⟨"hive", "3.0", .deprecated, 0⟩, ⟨"presto", "0.290", .active, 1⟩]
  plans := [⟨"spark", 0, "spark", "spark rampup", true, samplePlan.entries⟩,
    ⟨"hive", 1, "hive", "hive rampup", true, []⟩]

def mixedKey : Key :=
  ⟨bytesOf "nightly", by decide⟩

def mixedBacking : Backing Memory :=
  .start mixedMemory ⟨[], 1⟩

theorem batch_unites_singles_sample :
    let rules : Rules := ⟨false, .whole 5⟩
    (∃ versions, keyedBatch rules mixedKey mixedBacking ["spark", "presto"] = .ok versions ∧
      ("spark", "1.1") ∈ versions ∧ ("presto", "0.290") ∈ versions) ∧
    ∃ missing corrupt,
      keyedBatch rules mixedKey mixedBacking ["spark", "hive"] = .error (.domain (.unresolved missing corrupt)) ∧
        "spark" ∉ missing ∧ "hive" ∈ missing ∧ "hive" ∈ corrupt := by
  intro rules
  have hlenient : rules.strict = false := rfl
  have htime : rules.timeout.isOver = false := rfl
  have hone : ∀ imageType, keyedBatch rules mixedKey mixedBacking [imageType] =
      mixedMemory.keyedResult mixedKey [imageType] := by
    intro imageType
    have hresult := Memory.result_resolveAll_keyed hlenient htime mixedKey mixedBacking [imageType]
    rw [Names.ordered_singleton] at hresult
    exact hresult
  have hdraw : mixedKey.draw = 30 := by decide +kernel
  have hspark : ∃ single, keyedBatch rules mixedKey mixedBacking ["spark"] = .ok single ∧ ("spark", "1.1") ∈ single := by
    rw [hone]
    refine Memory.exists_version_singleton_iff.mpr ⟨rfl, ?_⟩
    unfold Memory.keyedVersion? Memory.keyedOutcome
    rw [hdraw]
    cbv
  have hpresto : ∃ single, keyedBatch rules mixedKey mixedBacking ["presto"] = .ok single ∧
      ("presto", "0.290") ∈ single := by
    rw [hone]
    exact Memory.exists_version_singleton_iff.mpr ⟨rfl, by decide +kernel⟩
  have hhive : ∃ alone among, keyedBatch rules mixedKey mixedBacking ["hive"] =
      .error (.domain (.unresolved alone among)) ∧ "hive" ∈ among := by
    rw [hone]
    exact Memory.exists_corrupt_singleton_iff.mpr (by decide +kernel)
  obtain ⟨alone, hspark', hmemSpark⟩ := hspark
  obtain ⟨single, hpresto', hmemPresto⟩ := hpresto
  obtain ⟨missing, corrupt, hhive', hmemHive⟩ := hhive
  constructor
  · obtain ⟨hall, hunion, -⟩ := batch_unites_singles hlenient mixedKey mixedBacking ["spark", "presto"]
    obtain ⟨versions, hversions⟩ := hall.mpr (by simp [hspark', hpresto'])
    refine ⟨versions, hversions, ?_, ?_⟩
    · exact ((hunion versions hversions).2 _).mpr ⟨"spark", by decide, alone, hspark', hmemSpark⟩
    · exact ((hunion versions hversions).2 _).mpr ⟨"presto", by decide, single, hpresto', hmemPresto⟩
  · obtain ⟨hall, -, hfails, -⟩ := batch_unites_singles hlenient mixedKey mixedBacking ["spark", "hive"]
    cases hresult : keyedBatch rules mixedKey mixedBacking ["spark", "hive"] with
    | ok versions =>
      obtain ⟨single, hsingle⟩ := hall.mp ⟨versions, hresult⟩ "hive" (by decide)
      rw [hhive'] at hsingle
      cases hsingle
    | error f =>
      obtain ⟨missing', corrupt', rfl, -, -, hmissing, hcorrupt⟩ := hfails htime f hresult
      refine ⟨missing', corrupt', rfl, fun hmem => ?_, ?_, ?_⟩
      · obtain ⟨-, g, hg⟩ := (hmissing "spark").mp hmem
        rw [hspark'] at hg
        cases hg
      · exact (hmissing "hive").mpr ⟨by decide, _, hhive'⟩
      · exact (hcorrupt "hive").mpr ⟨"hive", by decide, missing, corrupt, hhive', hmemHive⟩

end ImageRollout
