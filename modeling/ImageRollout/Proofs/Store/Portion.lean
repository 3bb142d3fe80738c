import ImageRollout.Proofs.Store.Memory
import ImageRollout.Proofs.Store.Versions

/-! What a store in memory holds for one image type. All types share the lists of the store, and its
    numbers count through them, so a portion leaves the numbers out. Each operation changes the portion
    of its own type alone, by what that portion is. -/

namespace ImageRollout

/-- A plan without its number. -/
def Plan.unnumbered (p : Plan) : Plan :=
  { p with id := none }

/-- What the store holds for an image type: the description that it is registered with, its versions and
    its plans, in the order they were made. -/
structure Portion where
  registration : Option (Option String)
  versions : List (String × VersionState)
  plans : List Plan

/-- A new plan as a portion holds it. -/
def NewPlan.held (plan : NewPlan) : Plan where
  imageType := plan.imageType
  active := plan.activate
  entries := plan.entries
  name := some plan.name

namespace Memory

def portion (m : Memory) (imageType : String) : Portion where
  registration := m.types.lookup imageType
  versions := (m.versionsOf imageType).map fun r => (r.version, r.state)
  plans := (m.plansOf imageType).map fun p => p.plan.unnumbered

/-- An operation on an image type: it changes the portion of this type alone, by what the portion is. -/
def Local (name : String) (f : Memory → Memory) : Prop :=
  ∃ g : Portion → Portion, ∀ m imageType,
    (f m).portion imageType = if name = imageType then g (m.portion imageType) else m.portion imageType

namespace Local

variable {name : String} {f f' : Memory → Memory}

theorem id : Local name fun m => m :=
  ⟨fun p => p, fun _ _ => (ite_self _).symm⟩

theorem comp (h' : Local name f') (h : Local name f) : Local name fun m => f' (f m) := by
  obtain ⟨g', hg'⟩ := h'
  obtain ⟨g, hg⟩ := h
  refine ⟨fun p => g' (g p), fun m imageType => ?_⟩
  rw [hg', hg]
  split <;> rfl

/-- An operation that is tried only on stores whose portion allows it. -/
theorem guard (h : Local name f) (allowed : Portion → Bool) :
    Local name fun m => if allowed (m.portion name) then f m else m := by
  obtain ⟨g, hg⟩ := h
  refine ⟨fun p => if allowed p then g p else p, fun m imageType => ?_⟩
  by_cases heq : name = imageType
  · subst heq
    cases hallowed : allowed (m.portion name) <;> simp [hallowed, hg]
  · cases hallowed : allowed (m.portion name) <;> simp [hallowed, hg, heq]

theorem portion_of_ne (h : Local name f) {imageType : String} (hne : name ≠ imageType) (m : Memory) :
    (f m).portion imageType = m.portion imageType := by
  obtain ⟨g, hg⟩ := h
  rw [hg, if_neg hne]

theorem portion_congr (h : Local name f) {m m' : Memory} (heq : m.portion name = m'.portion name) :
    (f m).portion name = (f m').portion name := by
  obtain ⟨g, hg⟩ := h
  rw [hg, hg, heq]

end Local

/-! ### Image types -/

section

variable (m : Memory) (name imageType : String) (description : Option String)

theorem lookup_concat {items : List (String × Option String)} (h : items.lookup name = none) :
    (items ++ [(name, description)]).lookup imageType =
      if name = imageType then some description else items.lookup imageType := by
  rw [List.lookup_append]
  by_cases heq : name = imageType
  · simp [← heq, h]
  · simp [List.lookup_cons, beq_eq_false_iff_ne.mpr (Ne.symm heq), heq]

theorem lookup_addType :
    (m.addType name description).types.lookup imageType =
      if name = imageType then some description else m.types.lookup imageType := by
  unfold addType
  split
  · rename_i hregistered
    obtain ⟨old, hold⟩ := Option.isSome_iff_exists.mp hregistered
    rw [Names.lookup_map fun other old => if other = name then description else old]
    by_cases heq : name = imageType
    · simp [← heq, hold]
    · simp [heq, Ne.symm heq]
  · rename_i hregistered
    exact lookup_concat name imageType description (Option.not_isSome_iff_eq_none.mp hregistered)

theorem lookup_ensureType :
    (m.ensureType name).types.lookup imageType =
      if name = imageType then some ((m.types.lookup imageType).getD none) else m.types.lookup imageType := by
  unfold ensureType
  split
  · rename_i hregistered
    obtain ⟨old, hold⟩ := Option.isSome_iff_exists.mp hregistered
    by_cases heq : name = imageType
    · simp [← heq, hold]
    · simp [heq]
  · rename_i hregistered
    have hnone : m.types.lookup name = none := Option.not_isSome_iff_eq_none.mp hregistered
    rw [lookup_concat name imageType none hnone]
    by_cases heq : name = imageType
    · simp [← heq, hnone]
    · simp [heq]

theorem local_addType : Local name (addType name description) := by
  refine ⟨fun p => { p with registration := some description }, fun m imageType => ?_⟩
  unfold portion versionsOf plansOf
  rw [versions_addType, plans_addType, lookup_addType]
  split <;> rfl

theorem local_ensureType : Local name (ensureType name) := by
  refine ⟨fun p => { p with registration := some (p.registration.getD none) }, fun m imageType => ?_⟩
  unfold portion versionsOf plansOf
  rw [versions_ensureType, plans_ensureType, lookup_ensureType]
  split <;> rfl

end

/-! ### Versions and plans -/

/-- A change of the records of one type, seen from the records of another or the same. -/
theorem filter_map_if {α : Type} {typeOf : α → String} {f : α → α} (hf : ∀ a, typeOf (f a) = typeOf a)
    (name imageType : String) (items : List α) :
    (items.map fun a => if typeOf a = name then f a else a).filter (fun a => typeOf a = imageType) =
      if name = imageType then (items.filter fun a => typeOf a = imageType).map f
      else items.filter fun a => typeOf a = imageType := by
  induction items with
  | nil => split <;> rfl
  | cons first rest ih =>
    rw [List.map_cons, List.filter_cons, ih]
    by_cases hname : name = imageType <;> by_cases hfirst : typeOf first = name <;>
      by_cases htype : typeOf first = imageType <;> simp_all

section

variable (m : Memory) (name imageType version : String) (state : VersionState)

theorem versionsOf_addVersion :
    (m.addVersion name version state).versionsOf imageType =
      if name = imageType then m.versionsOf imageType ++ [⟨name, version, state, m.versions.length⟩]
      else m.versionsOf imageType := by
  unfold versionsOf addVersion
  rw [List.filter_append, List.filter_singleton]
  by_cases heq : name = imageType <;> simp [heq]

theorem local_addVersion : Local name (addVersion name version state) := by
  refine ⟨fun p => { p with versions := p.versions ++ [(version, state)] }, fun m imageType => ?_⟩
  unfold portion
  rw [versionsOf_addVersion]
  split
  · rw [List.map_append]
    rfl
  · rfl

theorem versionsOf_setState :
    (m.setState name version state).versionsOf imageType =
      if name = imageType then
        (m.versionsOf imageType).map fun r => if r.version = version then { r with state } else r
      else m.versionsOf imageType := by
  unfold versionsOf setState
  simp only [ite_and]
  exact filter_map_if (fun r => by split <;> rfl) name imageType m.versions

theorem local_setState : Local name (setState name version state) := by
  refine ⟨fun p => { p with versions := p.versions.map fun v => if v.1 = version then (v.1, state) else v },
    fun m imageType => ?_⟩
  unfold portion
  rw [versionsOf_setState]
  split
  · dsimp only
    rw [List.map_map, List.map_map]
    congr 2
    funext r
    by_cases hversion : r.version = version <;> simp [hversion]
  · rfl

end

section

variable (m : Memory) (name imageType : String)

theorem plansOf_deactivate :
    (m.deactivate name).plansOf imageType =
      if name = imageType then (m.plansOf imageType).map fun p => { p with active := false }
      else m.plansOf imageType := by
  unfold plansOf deactivate
  refine filter_map_if (f := fun p => { p with active := false }) ?_ name imageType m.plans
  intro p
  rfl

theorem plansOf_addPlan (plan : NewPlan) :
    (m.addPlan plan).plansOf imageType =
      if plan.imageType = imageType then
        m.plansOf imageType ++
          [⟨plan.imageType, m.plans.length, plan.imageType, plan.name, plan.activate, plan.entries⟩]
      else m.plansOf imageType := by
  unfold plansOf addPlan
  rw [List.filter_append, List.filter_singleton]
  by_cases heq : plan.imageType = imageType <;> simp [heq]

theorem plansOf_replaceEntries (entries : List Entry) :
    (m.replaceEntries name entries).plansOf imageType =
      if name = imageType then (m.plansOf imageType).map fun p => if p.active then { p with entries } else p
      else m.plansOf imageType := by
  unfold plansOf replaceEntries
  simp only [ite_and]
  exact filter_map_if (fun p => by split <;> rfl) name imageType m.plans

theorem local_deactivate : Local name (deactivate name) := by
  refine ⟨fun p => { p with plans := p.plans.map fun plan => { plan with active := false } }, fun m imageType => ?_⟩
  unfold portion
  rw [plansOf_deactivate]
  split
  · dsimp only
    rw [List.map_map, List.map_map]
    rfl
  · rfl

theorem local_addPlan (plan : NewPlan) : Local plan.imageType (addPlan plan) := by
  refine ⟨fun p => { p with plans := p.plans ++ [plan.held] }, fun m imageType => ?_⟩
  unfold portion
  rw [plansOf_addPlan]
  split
  · rw [List.map_append]
    rfl
  · rfl

theorem local_withPlan (plan : NewPlan) : Local plan.imageType (withPlan plan) := by
  unfold withPlan
  cases plan.activate with
  | true => exact (local_addPlan plan).comp (local_deactivate plan.imageType)
  | false => exact local_addPlan plan

theorem local_replaceEntries (entries : List Entry) : Local name (replaceEntries name entries) := by
  refine ⟨fun p => { p with plans := p.plans.map fun plan => if plan.active then { plan with entries } else plan },
    fun m imageType => ?_⟩
  unfold portion
  rw [plansOf_replaceEntries]
  split
  · dsimp only
    rw [List.map_map, List.map_map]
    congr 2
    funext p
    cases hactive : p.active <;> simp [hactive, StoredPlan.plan, Plan.unnumbered]
  · rfl

end

/-! ### Places -/

/-- The place of a plan among the plans of an image type. -/
def place? (m : Memory) (imageType : String) (id : PlanId) : Option Nat :=
  (m.plansOf imageType).findIdx? fun p => p.id = id

theorem findIdx?_of_find? {α : Type} {q : α → Bool} {f : α → Nat} {items : List α}
    (h : items.Pairwise fun a b => f a ≠ f b) {a : α} (ha : items.find? q = some a) :
    ∃ k, items.findIdx? (fun b => f b = f a) = some k ∧ items.findIdx? q = some k := by
  induction items with
  | nil => cases ha
  | cons first rest ih =>
    obtain ⟨hfirst, hrest⟩ := List.pairwise_cons.mp h
    rw [List.findIdx?_cons, List.findIdx?_cons]
    cases hq : q first with
    | true =>
      rw [List.find?_cons_of_pos hq] at ha
      obtain rfl := Option.some.inj ha
      exact ⟨0, by simp, rfl⟩
    | false =>
      rw [List.find?_cons_of_neg (by simp [hq])] at ha
      have hne : f first ≠ f a := hfirst a (List.mem_of_find?_eq_some ha)
      obtain ⟨k, hk, hqk⟩ := ih hrest ha
      exact ⟨k + 1, by simp [hne, hk], by simp [hqk]⟩

variable {m : Memory} {imageType : String}

/-- The active plan is at the first active place of its type. -/
theorem Numbered.place?_active (h : Numbered m) {p : StoredPlan} (hp : m.active? imageType = some p) :
    ∃ k, m.place? imageType p.id = some k ∧ (m.portion imageType).plans.findIdx? Plan.active = some k := by
  obtain ⟨k, hk, hactive⟩ := findIdx?_of_find? (h.distinct imageType) hp
  refine ⟨k, ?_, ?_⟩
  · unfold place?
    simpa [StoredPlan.id] using hk
  · unfold portion
    rw [List.findIdx?_map]
    exact hactive

theorem active?_portion (m : Memory) (imageType : String) :
    (m.active? imageType).map (fun p => p.plan.unnumbered) = (m.portion imageType).plans.find? Plan.active := by
  unfold active? portion
  rw [List.find?_map]
  rfl

theorem place?_replaceEntries (name : String) (entries : List Entry) (id : PlanId) :
    (m.replaceEntries name entries).place? imageType id = m.place? imageType id := by
  unfold place?
  rw [plansOf_replaceEntries]
  split
  · rw [List.findIdx?_map]
    congr 1
    funext p
    rw [Function.comp_apply]
    split <;> rfl
  · rfl

/-- A new plan comes after the plans of its type. -/
theorem Numbered.place?_addPlan (h : Numbered m) (plan : NewPlan) :
    (m.addPlan plan).place? plan.imageType (.made m.plans.length) = some (m.plansOf plan.imageType).length := by
  have hother : (m.plansOf plan.imageType).findIdx? (fun p => p.id = .made m.plans.length) = none := by
    rw [List.findIdx?_eq_none_iff]
    intro p hp
    have hlt := h.number_lt (List.mem_filter.mp hp).1
    simp [StoredPlan.id, hlt.ne]
  unfold place?
  rw [plansOf_addPlan, if_pos rfl, List.findIdx?_append, hother]
  simp [StoredPlan.id]

theorem Numbered.place?_withPlan (h : Numbered m) (plan : NewPlan) :
    (m.withPlan plan).place? plan.imageType (.made m.plans.length) = some (m.plansOf plan.imageType).length := by
  unfold Memory.withPlan
  split
  · have hcount : (m.deactivate plan.imageType).plans.length = m.plans.length := List.length_map _
    have hplace := (h.deactivate plan.imageType).place?_addPlan plan
    rw [hcount, plansOf_deactivate, if_pos rfl, List.length_map] at hplace
    exact hplace
  · exact h.place?_addPlan plan

end Memory

end ImageRollout
