import ImageRollout.Proofs.Store.Plans
import ImageRollout.Store.Memory

/-! The store in memory. Each operation keeps its plans in order: a plan that is to be active comes after
    its type has no active one, and only entries that pass the check take the place of others. -/

namespace ImageRollout.Memory

open ImageRollout.Action

/-! ### Registration -/

theorem isRegistered_iff {m : Memory} {imageType : String} :
    m.isRegistered imageType ↔ imageType ∈ m.types.map Prod.fst := by
  unfold isRegistered
  generalize m.types = types
  induction types with
  | nil => simp
  | cons first rest ih =>
    rw [List.lookup_cons, List.map_cons, List.mem_cons, ← ih]
    by_cases h : imageType = first.1
    · simp [h]
    · simp [h, beq_eq_false_iff_ne.mpr h]

theorem isRegistered_addType (name : String) (description : Option String) (m : Memory) (imageType : String) :
    (m.addType name description).isRegistered imageType ↔ imageType = name ∨ m.isRegistered imageType := by
  unfold addType
  split
  · rename_i hname
    have hkeys : (m.types.map fun x : String × Option String => (x.1, if x.1 = name then description else x.2)).map Prod.fst =
        m.types.map Prod.fst := by
      rw [List.map_map]
      rfl
    rw [isRegistered_iff, hkeys, ← isRegistered_iff]
    exact ⟨Or.inr, fun h => h.elim (fun heq => heq ▸ hname) id⟩
  · rw [isRegistered_iff, isRegistered_iff, List.map_append, List.mem_append, or_comm]
    simp

theorem isRegistered_ensureType (name : String) (m : Memory) (imageType : String) :
    (m.ensureType name).isRegistered imageType ↔ imageType = name ∨ m.isRegistered imageType := by
  unfold ensureType
  split
  · rename_i hname
    exact ⟨Or.inr, fun h => h.elim (fun heq => heq ▸ hname) id⟩
  · rw [isRegistered_iff, isRegistered_iff, List.map_append, List.mem_append, or_comm]
    simp

section

variable (name : String) (description : Option String) (m : Memory)

@[simp] theorem versions_addType : (m.addType name description).versions = m.versions := by
  unfold addType
  split <;> rfl

@[simp] theorem plans_addType : (m.addType name description).plans = m.plans := by
  unfold addType
  split <;> rfl

@[simp] theorem versions_ensureType : (m.ensureType name).versions = m.versions := by
  unfold ensureType
  split <;> rfl

@[simp] theorem plans_ensureType : (m.ensureType name).plans = m.plans := by
  unfold ensureType
  split <;> rfl

end

/-! ### Versions -/

section

variable (imageType version word : String) (m : Memory)

theorem result_register :
    ((register imageType version word).run m).result =
      match VersionState.ofName? word with
      | some _ => .ok ()
      | none => .error (.misuse (.unknownState word)) := by
  unfold register
  rw [run_change_bind]
  cases VersionState.ofName? word <;> rfl

theorem state_register :
    ((register imageType version word).run m).state =
      match VersionState.ofName? word with
      | some state => (m.ensureType imageType).addVersion imageType version state
      | none => m.ensureType imageType := by
  unfold register
  rw [run_change_bind]
  cases VersionState.ofName? word <;> rfl

theorem result_changeState :
    ((changeState imageType version word).run m).result =
      match VersionState.ofName? word with
      | some _ => .ok ()
      | none =>
        if m.versions.any fun r => r.imageType = imageType ∧ r.version = version then
          .error (.misuse (.unknownState word))
        else .ok () := by
  unfold changeState
  rw [run_read_bind]
  cases VersionState.ofName? word with
  | some _ => rfl
  | none =>
    dsimp only
    split <;> rfl

theorem state_changeState :
    ((changeState imageType version word).run m).state =
      match VersionState.ofName? word with
      | some state => m.setState imageType version state
      | none => m := by
  unfold changeState
  rw [run_read_bind]
  cases VersionState.ofName? word with
  | some _ => rfl
  | none =>
    dsimp only
    split <;> rfl

end

/-! ### Writing plans -/

def withPlan (plan : NewPlan) (m : Memory) : Memory :=
  (if plan.activate then m.deactivate plan.imageType else m).addPlan plan

theorem versions_withPlan (plan : NewPlan) (m : Memory) : (m.withPlan plan).versions = m.versions := by
  unfold withPlan
  split <;> rfl

theorem ends_createPlan (plan : NewPlan) (m : Memory) :
    Ends (createPlan plan) m (fun _ => True)
      (fun id m' => id = .made m.plans.length ∧ m.isRegistered plan.imageType ∧ m' = m.withPlan plan)
      fun f m' => f = .domain (.unknownImageType plan.imageType) ∧ ¬m.isRegistered plan.imageType ∧ m' = m := by
  refine .read_bind ?_
  split
  · rename_i htype
    unfold withPlan
    cases plan.activate with
    | true =>
      have hlength : (m.deactivate plan.imageType).plans.length = m.plans.length := List.length_map _
      exact .change_bind (.read_bind (.change_bind (.pure ⟨congrArg PlanId.made hlength, htype, rfl⟩)))
    | false => exact .read_bind (.change_bind (.pure ⟨rfl, htype, rfl⟩))
  · rename_i htype
    exact .fail ⟨rfl, htype, rfl⟩

theorem ends_updatePlan (imageType : String) (entries : List Entry) (m : Memory) :
    Ends (updatePlan imageType entries) m (fun _ => True)
      (fun id m' => ∃ p, m.active? imageType = some p ∧ id = p.id ∧ m' = m.replaceEntries imageType entries)
      fun f m' => f = .domain (.noActivePlan imageType) ∧ m.active? imageType = none ∧ m' = m := by
  refine .read_bind ?_
  split
  · rename_i p hp
    exact .change_bind (.pure ⟨p, hp, rfl, rfl⟩)
  · rename_i hnone
    exact .fail ⟨rfl, hnone, rfl⟩

theorem result_createPlan (plan : NewPlan) (m : Memory) :
    ((createPlan plan).run m).result =
      if m.isRegistered plan.imageType then .ok (.made m.plans.length)
      else .error (.domain (.unknownImageType plan.imageType)) := by
  refine Ends.result_eq ((ends_createPlan plan m).mono (fun _ he => he) ?_ ?_)
  · rintro _ _ ⟨rfl, htype, -⟩
    exact if_pos htype
  · rintro _ _ ⟨rfl, htype, -⟩
    exact if_neg htype

theorem state_createPlan (plan : NewPlan) (m : Memory) :
    ((createPlan plan).run m).state = if m.isRegistered plan.imageType then m.withPlan plan else m := by
  refine Ends.state (p := (· = _)) ((ends_createPlan plan m).mono (fun _ he => he) ?_ ?_)
  · rintro _ _ ⟨-, htype, rfl⟩
    exact (if_pos htype).symm
  · rintro _ _ ⟨-, htype, rfl⟩
    exact (if_neg htype).symm

theorem result_updatePlan (imageType : String) (entries : List Entry) (m : Memory) :
    ((updatePlan imageType entries).run m).result =
      match m.active? imageType with
      | some p => .ok p.id
      | none => .error (.domain (.noActivePlan imageType)) := by
  refine Ends.result_eq ((ends_updatePlan imageType entries m).mono (fun _ he => he) ?_ ?_)
  · rintro _ _ ⟨p, hp, rfl, -⟩
    rw [hp]
  · rintro _ _ ⟨rfl, hnone, -⟩
    rw [hnone]

theorem replaceEntries_of_inactive {m : Memory} {imageType : String} (h : m.active? imageType = none)
    (entries : List Entry) : m.replaceEntries imageType entries = m := by
  have hplans : ∀ p ∈ m.plans, ¬(p.key = imageType ∧ p.active) := by
    rintro p hp ⟨htype, hactive⟩
    exact List.find?_eq_none.mp h p (List.mem_filter.mpr ⟨hp, decide_eq_true htype⟩) hactive
  have hsame : m.plans.map (fun p => if p.key = imageType ∧ p.active then { p with entries } else p) = m.plans :=
    (List.map_congr_left fun p hp => if_neg (hplans p hp)).trans (List.map_id m.plans)
  unfold replaceEntries
  rw [hsame]

/-- Without an active plan there are no entries to replace, so an update always replaces them. -/
theorem state_updatePlan (imageType : String) (entries : List Entry) (m : Memory) :
    ((updatePlan imageType entries).run m).state = m.replaceEntries imageType entries := by
  refine Ends.state (p := (· = _)) ((ends_updatePlan imageType entries m).mono (fun _ he => he) ?_ ?_)
  · rintro _ _ ⟨-, -, -, hstate⟩
    exact hstate
  · rintro _ _ ⟨-, hnone, rfl⟩
    exact (replaceEntries_of_inactive hnone entries).symm

/-! ### Plans in order -/

/-- Every plan is kept under the image type that it names itself. -/
def Filed (m : Memory) : Prop :=
  ∀ p ∈ m.plans, p.imageType = p.key

namespace Filed

variable {m m' : Memory}

theorem of_plans_eq (h : Filed m) (hplans : m'.plans = m.plans) : Filed m' := by
  unfold Filed
  rw [hplans]
  exact h

theorem map_plans (h : Filed m) {f : StoredPlan → StoredPlan} (hkey : ∀ p, (f p).key = p.key)
    (htype : ∀ p, (f p).imageType = p.imageType) : Filed { m with plans := m.plans.map f } := by
  intro q hq
  obtain ⟨p, hp, rfl⟩ := List.mem_map.mp hq
  rw [htype, hkey]
  exact h p hp

theorem deactivate (h : Filed m) (imageType : String) : Filed (m.deactivate imageType) :=
  h.map_plans (fun p => by split <;> rfl) fun p => by split <;> rfl

theorem addPlan (h : Filed m) (plan : NewPlan) : Filed (m.addPlan plan) := by
  intro p hp
  rcases List.mem_append.mp hp with hp | hp
  · exact h p hp
  · obtain rfl := List.mem_singleton.mp hp
    rfl

theorem withPlan (h : Filed m) (plan : NewPlan) : Filed (m.withPlan plan) := by
  unfold Memory.withPlan
  split
  · exact (h.deactivate plan.imageType).addPlan plan
  · exact h.addPlan plan

theorem replaceEntries (h : Filed m) (imageType : String) (entries : List Entry) :
    Filed (m.replaceEntries imageType entries) :=
  h.map_plans (fun p => by split <;> rfl) fun p => by split <;> rfl

end Filed

/-- What the store satisfies. -/
structure Sound (m : Memory) : Prop where
  filed : m.Filed
  single : OneActive StoredPlan.key StoredPlan.active m.plans
  accepted : ∀ p ∈ m.plans, checkPlan p.entries = .ok ()
  registered : ∀ p ∈ m.plans, m.isRegistered p.key

namespace Sound

variable {m m' : Memory}

theorem empty : Sound {} where
  filed _ h := by cases h
  single := List.Pairwise.nil
  accepted _ h := by cases h
  registered _ h := by cases h

/-- What leaves the plans alone and forgets no type keeps the store sound. -/
theorem of_plans_eq (h : Sound m) (hplans : m'.plans = m.plans)
    (htypes : ∀ imageType, m.isRegistered imageType → m'.isRegistered imageType) : Sound m' where
  filed := h.filed.of_plans_eq hplans
  single := hplans ▸ h.single
  accepted p hp := h.accepted p (hplans ▸ hp)
  registered p hp := htypes _ (h.registered p (hplans ▸ hp))

theorem deactivate (h : Sound m) (imageType : String) : Sound (m.deactivate imageType) where
  filed := h.filed.deactivate imageType
  single := h.single.map (fun p => by split <;> rfl) fun p hp => by
    split at hp
    · cases hp
    · exact hp
  accepted q hq := by
    obtain ⟨p, hp, rfl⟩ := List.mem_map.mp hq
    have hentries := h.accepted p hp
    split <;> exact hentries
  registered q hq := by
    obtain ⟨p, hp, rfl⟩ := List.mem_map.mp hq
    have htype := h.registered p hp
    split <;> exact htype

theorem inactive_deactivate (imageType : String) :
    ∀ p ∈ (m.deactivate imageType).plans, p.active → p.key ≠ imageType := by
  intro q hq hactive
  obtain ⟨p, -, rfl⟩ := List.mem_map.mp hq
  split at hactive
  · cases hactive
  · rename_i hother
    rw [ite_cond_eq_false _ _ (eq_false hother)]
    exact hother

theorem addPlan (h : Sound m) {plan : NewPlan} (hentries : checkPlan plan.entries = .ok ())
    (htype : m.isRegistered plan.imageType)
    (hfree : plan.activate → ∀ p ∈ m.plans, p.active → p.key ≠ plan.imageType) : Sound (m.addPlan plan) where
  filed := h.filed.addPlan plan
  single := h.single.concat hfree
  accepted p hp := by
    rcases List.mem_append.mp hp with hp | hp
    · exact h.accepted p hp
    · obtain rfl := List.mem_singleton.mp hp
      exact hentries
  registered p hp := by
    rcases List.mem_append.mp hp with hp | hp
    · exact h.registered p hp
    · obtain rfl := List.mem_singleton.mp hp
      exact htype

theorem withPlan (h : Sound m) {plan : NewPlan} (hentries : checkPlan plan.entries = .ok ())
    (htype : m.isRegistered plan.imageType) : Sound (m.withPlan plan) := by
  unfold Memory.withPlan
  by_cases hactive : plan.activate = true
  · rw [ite_cond_eq_true _ _ (eq_true hactive)]
    exact (h.deactivate plan.imageType).addPlan hentries htype fun _ => inactive_deactivate plan.imageType
  · rw [ite_cond_eq_false _ _ (eq_false hactive)]
    exact h.addPlan hentries htype fun hactivate => absurd hactivate hactive

theorem replaceEntries (h : Sound m) (imageType : String) {entries : List Entry} (hentries : checkPlan entries = .ok ()) :
    Sound (m.replaceEntries imageType entries) where
  filed := h.filed.replaceEntries imageType entries
  single := h.single.map (fun p => by split <;> rfl) fun p hp => by
    split at hp <;> exact hp
  accepted q hq := by
    obtain ⟨p, hp, rfl⟩ := List.mem_map.mp hq
    have hold := h.accepted p hp
    split
    · exact hentries
    · exact hold
  registered q hq := by
    obtain ⟨p, hp, rfl⟩ := List.mem_map.mp hq
    have htype := h.registered p hp
    split <;> exact htype

theorem single_imageType (h : Sound m) : OneActive StoredPlan.imageType StoredPlan.active m.plans :=
  h.single.congr h.filed

theorem inOrder (h : Sound m) : InOrder (fun imageType => m.isRegistered imageType) (m.plans.map StoredPlan.plan) where
  single := (h.single_imageType.map (f := StoredPlan.plan) (fun _ => rfl) fun _ => id).length_le_one
  accepted q hq := by
    obtain ⟨p, hp, rfl⟩ := List.mem_map.mp hq
    exact h.accepted p hp
  registered q hq := by
    obtain ⟨p, hp, rfl⟩ := List.mem_map.mp hq
    have htype : p.plan.imageType = p.key := h.filed p hp
    rw [htype]
    exact h.registered p hp

end Sound

/-! ### Numbers -/

/-- The numbers in the store count its versions and its plans. -/
structure Numbered (m : Memory) : Prop where
  versions : m.versions.map Registration.sequence = List.range m.versions.length
  plans : m.plans.map StoredPlan.number = List.range m.plans.length

namespace Numbered

variable {m m' : Memory}

theorem empty : Numbered {} where
  versions := rfl
  plans := rfl

theorem of_eq (h : Numbered m) (hversions : m'.versions = m.versions) (hplans : m'.plans = m.plans) : Numbered m' where
  versions := hversions ▸ h.versions
  plans := hplans ▸ h.plans

theorem addVersion (h : Numbered m) (imageType version : String) (state : VersionState) :
    Numbered (m.addVersion imageType version state) where
  versions := by
    unfold Memory.addVersion
    rw [List.map_append, h.versions, List.length_append, List.length_singleton, List.range_succ]
    rfl
  plans := h.plans

theorem setState (h : Numbered m) (imageType version : String) (state : VersionState) :
    Numbered (m.setState imageType version state) where
  versions := by
    unfold Memory.setState
    rw [List.map_map, List.length_map, ← h.versions]
    refine List.map_congr_left fun r _ => ?_
    rw [Function.comp_apply]
    split <;> rfl
  plans := h.plans

theorem map_plans (h : Numbered m) {f : StoredPlan → StoredPlan} (hf : ∀ p, (f p).number = p.number) :
    Numbered { m with plans := m.plans.map f } where
  versions := h.versions
  plans := by
    rw [List.map_map, List.length_map, ← h.plans]
    exact List.map_congr_left fun p _ => hf p

theorem replaceEntries (h : Numbered m) (imageType : String) (entries : List Entry) :
    Numbered (m.replaceEntries imageType entries) :=
  h.map_plans fun p => by split <;> rfl

theorem deactivate (h : Numbered m) (imageType : String) : Numbered (m.deactivate imageType) :=
  h.map_plans fun p => by split <;> rfl

theorem addPlan (h : Numbered m) (plan : NewPlan) : Numbered (m.addPlan plan) where
  versions := h.versions
  plans := by
    unfold Memory.addPlan
    rw [List.map_append, h.plans, List.length_append, List.length_singleton, List.range_succ]
    rfl

theorem withPlan (h : Numbered m) (plan : NewPlan) : Numbered (m.withPlan plan) := by
  unfold Memory.withPlan
  split
  · exact (h.deactivate plan.imageType).addPlan plan
  · exact h.addPlan plan

theorem ascending (h : Numbered m) : m.versions.Pairwise fun a b => a.sequence < b.sequence := by
  rw [← List.pairwise_map (f := Registration.sequence), h.versions]
  exact List.pairwise_lt_range

theorem number_lt (h : Numbered m) {p : StoredPlan} (hp : p ∈ m.plans) : p.number < m.plans.length := by
  have hmem := List.mem_map_of_mem (f := StoredPlan.number) hp
  rw [h.plans] at hmem
  exact List.mem_range.mp hmem

theorem distinct (h : Numbered m) (imageType : String) :
    (m.plansOf imageType).Pairwise fun p q => p.number ≠ q.number := by
  refine List.Pairwise.sublist List.filter_sublist ?_
  rw [← List.pairwise_map (f := StoredPlan.number), h.plans]
  exact List.nodup_range

end Numbered

/-! ### Reading plans -/

theorem Filed.activeIn_plans {m : Memory} (h : m.Filed) (imageType : String) :
    activeIn (m.plans.map StoredPlan.plan) imageType = (m.active? imageType).map StoredPlan.plan := by
  unfold activeIn active? plansOf
  rw [List.find?_map, List.find?_filter]
  refine congrArg (Option.map StoredPlan.plan) (List.find?_congr fun p hp => ?_)
  have htype : p.plan.imageType = p.key := h p hp
  rw [Function.comp_apply, htype, decide_eq_decide, decide_eq_true_iff]
  exact Iff.rfl

theorem Filed.reads {m : Memory} (h : m.Filed) : Reads writer source m (m.plans.map StoredPlan.plan) where
  one imageType := by
    rw [h.activeIn_plans]
    rfl
  many imageTypes := by
    refine ⟨m.activePlans imageTypes, rfl, fun imageType => ?_⟩
    have hlookup := Names.lookup_filterMap (fun name => (m.active? name).map fun p => some p.plan) imageType
      (Names.ordered imageTypes)
    rw [h.activeIn_plans, Option.map_map]
    simpa [activePlans, Option.map_map, Function.comp_def] using hlookup

theorem Sound.activeIn_eq {m : Memory} (h : Sound m) {p : StoredPlan} (hp : p ∈ m.plans) (hactive : p.active) :
    activeIn (m.plans.map StoredPlan.plan) p.imageType = some p.plan := by
  refine find?_eq_some_of_unique (List.mem_map_of_mem hp) (by simp [StoredPlan.plan, hactive]) fun plan hplan hfound => ?_
  obtain ⟨other, hother, rfl⟩ := List.mem_map.mp hplan
  obtain ⟨htype, hotherActive⟩ := of_decide_eq_true hfound
  rw [h.single_imageType.eq_of_mem hother hp hotherActive hactive htype]

theorem Sound.source_sound {m : Memory} (h : Sound m) : Source.Sound source m where
  activePlans imageTypes := by
    refine .read fun answer hanswer => ?_
    obtain ⟨_, hrun, hof⟩ := h.filed.reads.many imageTypes
    cases hanswer
    cases hrun
    exact hof.sound h.inOrder.accepted
  latestActive _ _ := .read trivial

end ImageRollout.Memory
