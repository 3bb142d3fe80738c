import ImageRollout.Proofs.Operations
import ImageRollout.Proofs.Resolution.Calls
import ImageRollout.Proofs.Resolution.Singly
import ImageRollout.Proofs.Store.Portion

/-! A batch over a store in memory that others write to meanwhile. A batch reads the plans first and the
    versions second, and between the two reads the store may be operated on. So a type may have a version
    at every moment and the batch still find none: where a plan takes over after the plans were read, and
    the last active version goes before the versions are. It is the only way for that to happen. -/

namespace ImageRollout

open ImageRollout.Action

namespace Memory

variable {m m' : Memory} {op : Operation} {imageType : String}

/-! ### Two reads -/

/-- The store as a batch finds it, where others operate on it between the reads of plans and of versions. -/
def contended (gap : List Operation) : Source Memory where
  activePlans imageTypes := do
    let answer ← source.activePlans imageTypes
    Action.change fun m => m.follow gap
    pure answer
  latestActive := source.latestActive
  typeNames? := source.typeNames?

/-- The image type has an active plan that passes the check. -/
def HasPlan (m : Memory) (imageType : String) : Prop :=
  ∃ p, m.active? imageType = some p ∧ checkPlan p.entries = .ok ()

def HasVersion (m : Memory) (imageType : String) : Prop :=
  ∃ r ∈ m.versions, r.imageType = imageType ∧ r.state = .active

/-- At every moment of the gap, from its start to its end, the image type has a plan or a version. -/
def Covered (m : Memory) (gap : List Operation) (imageType : String) : Prop :=
  ∀ before, before <+: gap → (m.follow before).HasPlan imageType ∨ (m.follow before).HasVersion imageType

theorem isSome_foldl_later (versions : List Registration) (newest : Option Registration) :
    (versions.foldl later newest).isSome ↔ newest.isSome ∨ versions ≠ [] := by
  induction versions generalizing newest with
  | nil => simp
  | cons r rest ih =>
    have hlater : (later newest r).isSome := by
      cases newest with
      | none => rfl
      | some best =>
        unfold later
        dsimp only
        split <;> rfl
    rw [List.foldl_cons, ih]
    simp [hlater]

theorem isSome_newestActive?_iff : (m.newestActive? imageType).isSome ↔ m.HasVersion imageType := by
  unfold newestActive? HasVersion
  rw [isSome_foldl_later, ne_eq, List.filter_eq_nil_iff]
  simp

/-! ### Operations that leave the active plan of a type alone -/

/-- A plan is written for the image type that is active at once. -/
def WritesPlan (op : Operation) (imageType : String) : Prop :=
  op.activates? = some imageType ∨ ∃ entries user, op.rewrites? = some (imageType, entries, user)

theorem Wrote.active?_eq (h : Wrote op m m') (hop : ¬WritesPlan op imageType) :
    m'.active? imageType = m.active? imageType := by
  unfold active?
  cases h with
  | nothing h =>
    unfold plansOf
    rw [h]
  | @plan plan hadds h =>
    subst h
    unfold withPlan
    by_cases hactivate : plan.activate = true
    · have hne : plan.imageType ≠ imageType := by
        rintro rfl
        exact hop (Or.inl (Operation.activates?_of_adds hadds hactivate))
      rw [if_pos hactivate, plansOf_addPlan, if_neg hne, plansOf_deactivate, if_neg hne]
    · rw [if_neg hactivate, plansOf_addPlan]
      split
      · rw [List.find?_append]
        simp [hactivate]
      · rfl
  | @entries name entries user hrewrites h =>
    subst h
    have hne : name ≠ imageType := by
      rintro rfl
      exact hop (Or.inr ⟨entries, user, hrewrites⟩)
    rw [plansOf_replaceEntries, if_neg hne]

theorem active?_follow {gap : List Operation} (h : ∀ op ∈ gap, ¬WritesPlan op imageType) (m : Memory) :
    (m.follow gap).active? imageType = m.active? imageType := by
  induction gap generalizing m with
  | nil => rfl
  | cons op rest ih =>
    have hstep : (op.onMemory.run m).state.active? imageType = m.active? imageType :=
      (wrote_onMemory op m).active?_eq (h op List.mem_cons_self)
    exact (ih (fun other hother => h other (List.mem_cons_of_mem _ hother)) _).trans hstep

/-! ### What the batch comes to -/

section

variable {gap : List Operation} {rules : Rules} {strategy : Strategy} {b : Backing Memory}

/-- What the plans that were read first make of the image type. -/
def firstOutcome (strategy : Strategy) (b : Backing Memory) (imageType : String) : Outcome :=
  outcomeIn strategy (b.store.activePlans [imageType]) [imageType] b.generator imageType

theorem answered_contended (gap : List Operation) (imageType : String) (htime : rules.timeout.isOver = false)
    (strategy : Strategy) (b : Backing Memory) :
    Answered (contended gap) rules [imageType] strategy b (b.store.activePlans [imageType])
      (some ((b.store.follow gap).latestActive [imageType])) where
  inTime := htime
  givesPlans := by
    rw [Names.ordered_singleton]
    rfl
  givesRows remaining hremaining hne := by
    have hsub : remaining.Sublist (Names.ordered [imageType]) := hremaining ▸ List.filter_sublist
    rw [Names.ordered_singleton] at hsub
    obtain rfl : remaining = [imageType] := (List.sublist_singleton.mp hsub).resolve_left hne
    rw [Names.ordered_singleton]
    rfl

theorem result_contended (hlenient : rules.strict = false) (htime : rules.timeout.isOver = false)
    (hrange : strategy.InRange b.generator) :
    ((resolveAll (contended gap) rules [imageType] (some strategy)).run b).result =
      match (firstOutcome strategy b imageType).version?.or
        (((b.store.follow gap).newestActive? imageType).map Registration.version) with
      | some version => .ok [(imageType, version)]
      | none => .error (.domain (.unresolved [imageType]
          (if (firstOutcome strategy b imageType).violation?.isSome then [imageType] else []))) := by
  have hanswered := answered_contended gap imageType htime strategy b
  have hnone : ∀ other ∈ [imageType], (outcomeIn strategy (b.store.activePlans [imageType]) (Names.ordered [imageType])
      b.generator other).failure? rules.strict other = none := by
    intro other _
    rw [failure?_outcomeIn hrange, hlenient]
    rfl
  have hversion : versionFor? (outcomeIn strategy (b.store.activePlans [imageType]) [imageType] b.generator)
      ((b.store.follow gap).latestActive [imageType]) imageType =
        (firstOutcome strategy b imageType).version?.or
          (((b.store.follow gap).newestActive? imageType).map Registration.version) := by
    unfold versionFor?
    rw [latest?_latestActive _ (List.mem_singleton_self imageType)]
    rfl
  rw [result_resolveAll_of_no_failure hanswered rfl hnone, Names.ordered_singleton, Option.getD_some]
  dsimp only
  rw [List.filter_cons, List.filterMap_cons, hversion]
  cases (firstOutcome strategy b imageType).version?.or
      (((b.store.follow gap).newestActive? imageType).map Registration.version) with
  | some version => rfl
  | none =>
    have hcorrupt : Names.within ([imageType].filter fun other => (outcomeIn strategy (b.store.activePlans [imageType])
          [imageType] b.generator other).violation?.isSome) [imageType] =
        if (firstOutcome strategy b imageType).violation?.isSome then [imageType] else [] := by
      unfold firstOutcome Names.within
      rw [List.filter_cons]
      split <;> simp
    exact congrArg (fun corrupt => Except.error (Failure.domain (.unresolved [imageType] corrupt))) hcorrupt

theorem firstOutcome_of_hasPlan (hrange : strategy.InRange b.generator) (h : b.store.HasPlan imageType) :
    (firstOutcome strategy b imageType).version?.isSome := by
  obtain ⟨p, hactive, hcheck⟩ := h
  have hplan := b.store.plan?_activePlans (List.mem_singleton_self imageType)
  rw [hactive, Option.map_some] at hplan
  have hdraw := (inRange_drawnPast hrange (b.store.activePlans [imageType])
    ([imageType].filter fun other => decide (other < imageType))).draw imageType
  obtain ⟨e, -, -, hjudge⟩ := (checkPlan_eq_ok_iff.mp hcheck).judge_eq hdraw
  unfold firstOutcome outcomeIn
  rw [hplan, resolve_eq_judge]
  exact congrArg (fun outcome => outcome.version?.isSome) hjudge

theorem firstOutcome_of_no_plan (h : b.store.active? imageType = none) (strategy : Strategy) :
    firstOutcome strategy b imageType = .noPlan := by
  have hplan := b.store.plan?_activePlans (List.mem_singleton_self imageType)
  rw [h, Option.map_none] at hplan
  exact outcomeIn_of_no_plan strategy hplan _ _

/-- A plan at the first read or an active version at the second is enough. -/
theorem settled_contended (hlenient : rules.strict = false) (htime : rules.timeout.isOver = false)
    (hrange : strategy.InRange b.generator)
    (h : b.store.HasPlan imageType ∨ (b.store.follow gap).HasVersion imageType) :
    ∃ version, ((resolveAll (contended gap) rules [imageType] (some strategy)).run b).result =
      .ok [(imageType, version)] := by
  have hsome : ((firstOutcome strategy b imageType).version?.or
      (((b.store.follow gap).newestActive? imageType).map Registration.version)).isSome := by
    rw [Option.isSome_or, Option.isSome_map, Bool.or_eq_true, isSome_newestActive?_iff]
    exact h.imp_left (firstOutcome_of_hasPlan hrange)
  obtain ⟨version, hversion⟩ := Option.isSome_iff_exists.mp hsome
  refine ⟨version, ?_⟩
  rw [result_contended hlenient htime hrange, hversion]

theorem avoided_contended (hlenient : rules.strict = false) (hrange : strategy.InRange b.generator)
    (h : b.store.HasPlan imageType ∨ (b.store.follow gap).HasVersion imageType) {f : DomainFailure}
    (hresult : ((resolveAll (contended gap) rules [imageType] (some strategy)).run b).result = .error (.domain f)) :
    f.kind ≠ .aggregateResolution := by
  intro hkind
  cases htime : rules.timeout.isOver with
  | true =>
    cases hresult.symm.trans (run_resolveAll_of_over htime (List.cons_ne_nil _ _)).1
    cases hkind
  | false =>
    obtain ⟨version, hok⟩ := settled_contended hlenient htime hrange h
    cases hresult.symm.trans hok

/-- Without a plan at the first read and an active version at the second there is nothing to hand out. -/
theorem unresolved_contended (hlenient : rules.strict = false) (htime : rules.timeout.isOver = false)
    (hrange : strategy.InRange b.generator) (hplan : b.store.active? imageType = none)
    (hversion : ¬(b.store.follow gap).HasVersion imageType) :
    ((resolveAll (contended gap) rules [imageType] (some strategy)).run b).result =
      .error (.domain (.unresolved [imageType] [])) := by
  rw [← isSome_newestActive?_iff, Option.not_isSome_iff_eq_none] at hversion
  rw [result_contended hlenient htime hrange, firstOutcome_of_no_plan hplan, hversion]
  rfl

end

/-- What a batch for one image type comes to with a gap between its reads. -/
structure Contended (m : Memory) (gap : List Operation) (imageType : String) (rules : Rules)
    (result : Except Failure Versions) : Prop where
  settled : rules.timeout.isOver = false → m.HasPlan imageType ∨ (m.follow gap).HasVersion imageType →
    ∃ version, result = .ok [(imageType, version)]
  avoided : m.HasPlan imageType ∨ (m.follow gap).HasVersion imageType →
    ∀ f, result = .error (.domain f) → f.kind ≠ .aggregateResolution
  unresolved : rules.timeout.isOver = false → m.active? imageType = none → ¬(m.follow gap).HasVersion imageType →
    result = .error (.domain (.unresolved [imageType] []))
  failed : m.Covered gap imageType → ∀ f, result = .error (.domain f) → f.kind = .aggregateResolution →
    m.HasVersion imageType ∧ ¬m.HasPlan imageType ∧ (m.follow gap).HasPlan imageType ∧
      ¬(m.follow gap).HasVersion imageType ∧ ∃ op ∈ gap, WritesPlan op imageType

/-- A lenient batch for one image type, with operations on the store between its two reads. It gives a version
    if the type has a plan at the first read or an active version at the second. Where the type has one or
    the other at every moment the batch fails only by a handover: the type had only versions at the first
    read, a plan was written for it in the gap, and at the second read it has only that. -/
theorem fails_only_by_handover (gap : List Operation) (imageType : String) {rules : Rules} {strategy : Strategy}
    {b : Backing Memory} (hlenient : rules.strict = false) (hrange : strategy.InRange b.generator) :
    Contended b.store gap imageType rules
      ((resolveAll (contended gap) rules [imageType] (some strategy)).run b).result where
  settled htime := settled_contended hlenient htime hrange
  unresolved htime := unresolved_contended hlenient htime hrange
  avoided hsome _ := avoided_contended hlenient hrange hsome
  failed hcovered f hresult hkind := by
    have hnone : ¬(b.store.HasPlan imageType ∨ (b.store.follow gap).HasVersion imageType) :=
      fun hsome => avoided_contended hlenient hrange hsome hresult hkind
    obtain ⟨hplan, hversion⟩ := not_or.mp hnone
    have hlast : (b.store.follow gap).HasPlan imageType := (hcovered gap (List.prefix_refl gap)).resolve_right hversion
    refine ⟨(hcovered [] List.nil_prefix).resolve_left hplan, hplan, hlast, hversion, ?_⟩
    -- Had nobody written a plan for the type, its last active plan would be its first one.
    by_contra hwrites
    push Not at hwrites
    obtain ⟨p, hactive, hcheck⟩ := hlast
    rw [active?_follow hwrites] at hactive
    exact hplan ⟨p, hactive, hcheck⟩

/-! ### A handover -/

/-- A store with one active version of an image type, and no plan. -/
def unplannedMemory : Memory :=
  Memory.after [.addVersion ⟨0, "spark", "1.0", "active", 0⟩]

/-- A plan is made for the image type, and then its only version is deprecated. -/
def handover : List Operation :=
  [.change (.create sampleDraft (some "alice")), .change (.setState "spark" "1.0" "deprecated")]

theorem covered_handover : unplannedMemory.Covered handover "spark" := by
  intro before hbefore
  have hmem : before ∈ handover.inits := (List.mem_inits _ _).mpr hbefore
  have hinits : handover.inits = [[], handover.take 1, handover] := rfl
  rw [hinits] at hmem
  rcases List.mem_cons.mp hmem with rfl | hmem
  · exact Or.inr ⟨⟨"spark", "1.0", .active, 0⟩, by decide_cbv, rfl, rfl⟩
  rcases List.mem_cons.mp hmem with rfl | hmem
  · exact Or.inr ⟨⟨"spark", "1.0", .active, 0⟩, by decide_cbv, rfl, rfl⟩
  obtain rfl := List.mem_singleton.mp hmem
  refine Or.inl ⟨⟨"spark", 0, "spark", "spark rampup", true, (sampleDraft.stampNew (some "alice")).toEntries⟩, ?_, ?_⟩
  · decide_cbv
  · decide_cbv

theorem no_version_after_handover : ¬(unplannedMemory.follow handover).HasVersion "spark" := by
  rintro ⟨r, hmem, -, hactive⟩
  have hversions : (unplannedMemory.follow handover).versions = [⟨"spark", "1.0", .deprecated, 0⟩] := by decide_cbv
  rw [hversions] at hmem
  obtain rfl := List.mem_singleton.mp hmem
  cases hactive

def unplannedBacking : Backing Memory :=
  .start unplannedMemory ⟨[], 1⟩

/-- A batch for the one image type that draws the same number for every type. -/
def contendedResult (gap : List Operation) : Except Failure Versions :=
  ((resolveAll (contended gap) ⟨false, .whole 5⟩ ["spark"] (some (.assigned fun _ => 41))).run unplannedBacking).result

/-- At every moment of the gap there is a plan or an active version, and the batch finds neither. -/
theorem covered_but_unresolved :
    Reached unplannedMemory ∧ unplannedMemory.Covered handover "spark" ∧
      ∃ f, contendedResult handover = .error (.domain f) ∧ f.kind = .aggregateResolution :=
  ⟨.change _ .empty, covered_handover, .unresolved ["spark"] [],
    unresolved_contended rfl rfl (fun _ => rfl) (by decide_cbv) no_version_after_handover, rfl⟩

theorem fails_only_by_handover_sample :
    contendedResult handover = .error (.domain (.unresolved ["spark"] [])) ∧
      (∃ op ∈ handover, WritesPlan op "spark") ∧
      ∃ version, contendedResult (handover.take 1) = .ok [("spark", version)] := by
  have hcontended : ∀ gap, Contended unplannedBacking.store gap "spark" ⟨false, .whole 5⟩ (contendedResult gap) := by
    intro gap
    unfold contendedResult
    exact fails_only_by_handover gap "spark" rfl fun _ => rfl
  have hall := hcontended handover
  have hfirst := hcontended (handover.take 1)
  have hunresolved := hall.unresolved rfl (by decide_cbv) no_version_after_handover
  obtain ⟨-, -, -, -, hwrites⟩ := hall.failed covered_handover _ hunresolved rfl
  refine ⟨hunresolved, hwrites, hfirst.settled rfl (Or.inr ⟨⟨"spark", "1.0", .active, 0⟩, by decide_cbv, rfl, rfl⟩)⟩

end Memory

end ImageRollout
