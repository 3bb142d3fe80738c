import ImageRollout.Proofs.Store.Database
import ImageRollout.Proofs.Store.Portion

/-! A store in memory and tables of a database that hold the same: image types, versions with their
    states, and plans, all of them in the order they were made. Descriptions and the names of users may
    differ. The two are changed in different ways, and stay alike. -/

namespace ImageRollout

/-- A plan without the names of those who made its entries. -/
def Plan.unsigned (p : Plan) : Plan :=
  { p with entries := p.entries.map Entry.unsigned }

/-- Image type, version, and the word for its state. -/
def Registration.terms (r : Registration) : String × String × String :=
  (r.imageType, r.version, r.state.name)

def VersionRow.terms (row : VersionRow) : String × String × String :=
  (row.imageType, row.version, row.state)

def Memory.unsignedPlans (m : Memory) : List Plan :=
  m.plans.map fun p => p.plan.unsigned

def Tables.unsignedPlans (t : Tables) : List Plan :=
  t.plans.map fun row => (t.planOf row).unsigned

/-- A store in memory and tables that hold the same. Tables tell the image type of a plan by the plan itself,
    so the plans in memory have to be kept under theirs. -/
structure Alike (m : Memory) (t : Tables) : Prop where
  filed : m.Filed
  types : m.types.map Prod.fst = t.types.map TypeRow.name
  /-- No image type is there twice. -/
  distinct : (t.types.map TypeRow.name).Nodup
  versions : m.versions.map Registration.terms = t.versions.map VersionRow.terms
  plans : m.unsignedPlans = t.unsignedPlans

/-! ### Image types -/

/-- The names with another one, unless it is there. -/
def withName (name : String) (names : List String) : List String :=
  if name ∈ names then names else names ++ [name]

theorem nodup_withName {names : List String} (h : names.Nodup) (name : String) : (withName name names).Nodup := by
  unfold withName
  split
  · exact h
  · rename_i hnew
    refine List.nodup_append.mpr ⟨h, List.nodup_cons.mpr ⟨List.not_mem_nil, .nil⟩, fun a ha b hb => ?_⟩
    obtain rfl := List.mem_singleton.mp hb
    rintro rfl
    exact hnew ha

section

variable (name : String) (description : Option String)

theorem Memory.names_addType (m : Memory) :
    (m.addType name description).types.map Prod.fst = withName name (m.types.map Prod.fst) := by
  unfold addType withName
  simp only [← isRegistered_iff]
  split
  · rw [List.map_map]
    rfl
  · rw [List.map_append]
    rfl

theorem Memory.names_ensureType (m : Memory) :
    (m.ensureType name).types.map Prod.fst = withName name (m.types.map Prod.fst) := by
  unfold ensureType withName
  simp only [← isRegistered_iff]
  split
  · rfl
  · rw [List.map_append]
    rfl

theorem Tables.names_putType (t : Tables) :
    (t.putType name description).types.map TypeRow.name = withName name (t.types.map TypeRow.name) := by
  unfold putType withName
  simp only [← isSome_type?_iff]
  split
  · rw [List.map_map]
    refine List.map_congr_left fun row _ => ?_
    rw [Function.comp_apply]
    split <;> rfl
  · rw [List.map_append]
    rfl

theorem Tables.names_ensureType (t : Tables) :
    (t.ensureType name).types.map TypeRow.name = withName name (t.types.map TypeRow.name) := by
  unfold ensureType withName
  simp only [← isSome_type?_iff]
  split
  · rfl
  · rw [List.map_append]
    rfl

end

/-! ### Versions -/

/-- The terms of a version, with another word for the state where they are those of one version. -/
def restated (imageType version word : String) (terms : String × String × String) : String × String × String :=
  if terms.1 = imageType ∧ terms.2.1 = version then (terms.1, terms.2.1, word) else terms

theorem Memory.terms_setState (imageType version : String) (state : VersionState) (m : Memory) :
    (m.setState imageType version state).versions.map Registration.terms =
      (m.versions.map Registration.terms).map (restated imageType version state.name) := by
  unfold setState
  rw [List.map_map, List.map_map]
  refine List.map_congr_left fun r _ => ?_
  rw [Function.comp_apply, Function.comp_apply, apply_ite Registration.terms]
  rfl

theorem Tables.terms_setState (imageType version word : String) (t : Tables) :
    (t.setState imageType version word).versions.map VersionRow.terms =
      (t.versions.map VersionRow.terms).map (restated imageType version word) := by
  unfold setState
  rw [List.map_map, List.map_map]
  refine List.map_congr_left fun row _ => ?_
  rw [Function.comp_apply, Function.comp_apply, apply_ite VersionRow.terms]
  rfl

theorem Tables.times_setState (imageType version word : String) (t : Tables) :
    (t.setState imageType version word).versions.map VersionRow.createdAt = t.versions.map VersionRow.createdAt := by
  unfold setState
  rw [List.map_map]
  refine List.map_congr_left fun row _ => ?_
  rw [Function.comp_apply]
  split <;> rfl

/-- The version of an image type that is active and was registered last. -/
def newestIn (imageType : String) (versions : List (String × String × String)) : Option ActiveVersion :=
  (versions.filter fun v => v.1 = imageType ∧ v.2.2 = VersionState.active.name).getLast?.map
    fun v => ⟨imageType, v.2.1⟩

theorem VersionState.name_eq_active_iff (state : VersionState) :
    state.name = VersionState.active.name ↔ state = .active := by
  cases state <;> decide

theorem Memory.newestIn_terms {m : Memory} (h : m.Numbered) (imageType : String) :
    (m.newestActive? imageType).map (fun r => ⟨imageType, r.version⟩) =
      newestIn imageType (m.versions.map Registration.terms) := by
  have hfilter : ((m.versionsOf imageType).filter fun r => r.state = .active) =
      m.versions.filter fun r => r.terms.1 = imageType ∧ r.terms.2.2 = VersionState.active.name := by
    unfold versionsOf
    rw [List.filter_filter]
    refine List.filter_congr fun r _ => ?_
    rw [Bool.eq_iff_iff]
    simp [Registration.terms, VersionState.name_eq_active_iff, and_comm]
  unfold newestIn
  rw [newestActive?_eq_getLast? h.ascending, hfilter, List.filter_map, List.getLast?_map, Option.map_map]
  rfl

theorem Tables.newestIn_terms {t : Tables} (h : t.versions.Pairwise fun a b => a.createdAt < b.createdAt)
    (imageType : String) :
    (t.activeVersions imageType).head?.map (fun row => ⟨imageType, row.version⟩) =
      newestIn imageType (t.versions.map VersionRow.terms) := by
  unfold newestIn
  rw [head?_activeVersions h, List.filter_map, List.getLast?_map, Option.map_map]
  rfl

/-! ### Plans -/

def Plan.deactivated (imageType : String) (p : Plan) : Plan :=
  if p.imageType = imageType then { p with active := false } else p

/-- The plan with other entries where it is the active one of an image type. -/
def Plan.replaced (imageType : String) (entries : List Entry) (p : Plan) : Plan :=
  if p.imageType = imageType ∧ p.active then { p with entries := entries.map Entry.unsigned } else p

/-- A new plan as a store tells it. -/
def NewPlan.stored (plan : NewPlan) (number : Nat) : Plan where
  imageType := plan.imageType
  active := plan.activate
  entries := plan.entries.map Entry.unsigned
  id := some (.made number)
  name := some plan.name

/-- Plans with a new one. -/
def withStored (plan : NewPlan) (plans : List Plan) : List Plan :=
  (if plan.activate then plans.map (Plan.deactivated plan.imageType) else plans) ++ [plan.stored plans.length]

theorem activeIn_map_unsigned (plans : List Plan) (imageType : String) :
    activeIn (plans.map Plan.unsigned) imageType = (activeIn plans imageType).map Plan.unsigned := by
  unfold activeIn
  rw [List.find?_map]
  rfl

namespace Memory

section

variable (m : Memory)

theorem unsignedPlans_eq : m.unsignedPlans = (m.plans.map StoredPlan.plan).map Plan.unsigned := by
  unfold unsignedPlans
  rw [List.map_map]
  rfl

theorem length_unsignedPlans : m.unsignedPlans.length = m.plans.length :=
  List.length_map _

theorem unsignedPlans_addPlan (plan : NewPlan) :
    (m.addPlan plan).unsignedPlans = m.unsignedPlans ++ [plan.stored m.plans.length] := by
  unfold unsignedPlans addPlan
  rw [List.map_append]
  rfl

end

namespace Filed

variable {m : Memory} (h : m.Filed) (imageType : String)

include h

theorem activeIn_unsignedPlans :
    activeIn m.unsignedPlans imageType = (m.active? imageType).map fun p => p.plan.unsigned := by
  rw [unsignedPlans_eq, activeIn_map_unsigned, h.activeIn_plans, Option.map_map]
  rfl

theorem unsignedPlans_deactivate :
    (m.deactivate imageType).unsignedPlans = m.unsignedPlans.map (Plan.deactivated imageType) := by
  unfold unsignedPlans Memory.deactivate
  rw [List.map_map, List.map_map]
  refine List.map_congr_left fun p hp => ?_
  have hkey := h p hp
  by_cases htype : p.key = imageType <;>
    simp [Plan.deactivated, StoredPlan.plan, Plan.unsigned, StoredPlan.id, htype, hkey]

theorem unsignedPlans_withPlan (plan : NewPlan) :
    (m.withPlan plan).unsignedPlans = withStored plan m.unsignedPlans := by
  unfold Memory.withPlan withStored
  rw [length_unsignedPlans]
  split
  · have hcount : (m.deactivate plan.imageType).plans.length = m.plans.length := List.length_map _
    rw [unsignedPlans_addPlan, h.unsignedPlans_deactivate, hcount]
  · exact unsignedPlans_addPlan m plan

theorem unsignedPlans_replaceEntries (entries : List Entry) :
    (m.replaceEntries imageType entries).unsignedPlans = m.unsignedPlans.map (Plan.replaced imageType entries) := by
  unfold unsignedPlans Memory.replaceEntries
  rw [List.map_map, List.map_map]
  refine List.map_congr_left fun p hp => ?_
  have hkey := h p hp
  by_cases hactive : p.key = imageType ∧ p.active <;>
    simp [Plan.replaced, StoredPlan.plan, Plan.unsigned, StoredPlan.id, hactive, hkey]

end Filed

end Memory

namespace Tables

variable {t t' : Tables} (imageType : String)

theorem unsignedPlans_eq (t : Tables) : t.unsignedPlans = (t.plans.map t.planOf).map Plan.unsigned := by
  unfold unsignedPlans
  rw [List.map_map]
  rfl

theorem length_unsignedPlans (t : Tables) : t.unsignedPlans.length = t.plans.length :=
  List.length_map _

theorem planOf_congr {row : PlanRow} (h : t'.entries row.number = t.entries row.number) :
    t'.planOf row = t.planOf row := by
  unfold planOf
  rw [h]

/-- The name of the user that the entries are in does not matter. -/
theorem unsigned_planOf (row : PlanRow) {entries : List Entry} {user : Option String}
    (h : t.entries row.number = .ok (entries.map (Entry.inName user))) :
    (t.planOf row).unsigned =
      ⟨row.imageType, row.active, entries.map Entry.unsigned, some row.id, some row.name⟩ := by
  unfold Plan.unsigned
  rw [planOf_entries row h, SameTerms.inName]
  rfl

/-- Of one type there is but one active plan, so it comes first in whatever order plans are found. -/
theorem Sound.activeIn_unsignedPlans (h : t.Sound) :
    activeIn t.unsignedPlans imageType = (t.activePlans [imageType]).head?.map fun row => (t.planOf row).unsigned := by
  have hfind : activeIn (t.plans.map t.planOf) imageType = (t.activePlans [imageType]).head?.map t.planOf := by
    cases hrow : (t.activePlans [imageType]).head? with
    | some row =>
      obtain ⟨hmem, hactive, htype⟩ := mem_activePlans.mp (List.mem_of_mem_head? hrow)
      obtain rfl := List.mem_singleton.mp htype
      exact h.activeIn_eq hmem hactive
    | none =>
      refine activeIn_eq_none fun row hmem hactive htype => ?_
      have hfound := mem_activePlans.mpr ⟨hmem, hactive, List.mem_singleton.mpr htype⟩
      rw [List.head?_eq_none_iff.mp hrow] at hfound
      cases hfound
  rw [unsignedPlans_eq, activeIn_map_unsigned, hfind, Option.map_map]
  rfl

theorem unsignedPlans_deactivate (t : Tables) (user : Option String) :
    (t.deactivate imageType user).unsignedPlans = t.unsignedPlans.map (Plan.deactivated imageType) := by
  have hplanOf : (t.deactivate imageType user).planOf = t.planOf := by
    funext row
    exact planOf_congr rfl
  unfold unsignedPlans
  rw [hplanOf]
  unfold deactivate
  rw [List.map_map, List.map_map]
  refine List.map_congr_left fun row _ => ?_
  by_cases htype : row.imageType = imageType <;> cases hactive : row.active <;>
    simp [Plan.deactivated, planOf, Plan.unsigned, PlanRow.id, htype, hactive]

theorem Sound.unsignedPlans_insertPlan (h : t.Sound) (plan : NewPlan) :
    (t.insertPlan t.plans.length plan).unsignedPlans = t.unsignedPlans ++ [plan.stored t.plans.length] := by
  have hold : ∀ row ∈ t.plans, (t.insertPlan t.plans.length plan).planOf row = t.planOf row :=
    fun row hrow => planOf_congr (entries_insertPlan_of_ne (Nat.ne_of_gt (h.keyed.number_lt hrow)) plan)
  have hnew := h.entries_insertPlan (Nat.le_refl _) plan
  unfold unsignedPlans
  show (t.plans ++ [_]).map _ = _
  rw [List.map_append]
  congr 1
  · exact List.map_congr_left fun row hrow => congrArg Plan.unsigned (hold row hrow)
  · exact congrArg (fun p => [p]) (unsigned_planOf _ hnew)

theorem Sound.unsignedPlans_withPlan (h : t.Sound) (plan : NewPlan) :
    (t.withPlan plan).unsignedPlans = withStored plan t.unsignedPlans := by
  unfold Tables.withPlan withStored
  rw [length_unsignedPlans]
  split
  · have hcount : (t.deactivate plan.imageType plan.createdBy).plans.length = t.plans.length := List.length_map _
    rw [← hcount, (h.deactivate plan.imageType plan.createdBy).unsignedPlans_insertPlan, unsignedPlans_deactivate]
  · exact h.unsignedPlans_insertPlan plan

theorem Sound.unsignedPlans_replaceShares (h : t.Sound) {row : PlanRow}
    (hrow : (t.activePlans [imageType]).head? = some row) (entries : List Entry) (user : Option String) :
    (t.replaceShares row.number entries user).unsignedPlans =
      t.unsignedPlans.map (Plan.replaced imageType entries) := by
  obtain ⟨hmem, hactive, htype⟩ := mem_activePlans.mp (List.mem_of_mem_head? hrow)
  obtain rfl := List.mem_singleton.mp htype
  unfold unsignedPlans
  show ((t.plans.map _).map _) = _
  rw [List.map_map, List.map_map]
  refine List.map_congr_left fun other hother => ?_
  rw [Function.comp_apply, Function.comp_apply]
  -- The plan with the number is the active one of its type, so either way the same plan is changed.
  by_cases heq : other.number = row.number
  · obtain rfl := h.keyed.eq_of_number hother hmem heq
    have hentries := entries_of_shares (filter_shares_replaceShares t other.number entries user)
    have hchanged : (t.planOf other).unsigned.imageType = other.imageType ∧ (t.planOf other).unsigned.active :=
      ⟨rfl, hactive⟩
    unfold Plan.replaced
    rw [if_pos rfl, if_pos hchanged]
    exact unsigned_planOf { other with modifiedBy := user } hentries
  · have hkept : ¬((t.planOf other).unsigned.imageType = row.imageType ∧ (t.planOf other).unsigned.active) := by
      rintro ⟨hsame, hotherActive⟩
      exact heq (congrArg PlanRow.number (h.single.eq_of_mem hother hmem hotherActive hactive hsame))
    unfold Plan.replaced
    rw [if_neg heq, if_neg hkept, planOf_congr (entries_replaceShares_of_ne (Ne.symm heq) entries user)]

end Tables

/-! ### Both of them changed -/

namespace Tables

variable (name : String) (description : Option String) (t : Tables)

theorem putType_eq : t.putType name description = { t with types := (t.putType name description).types } := by
  unfold putType
  split <;> rfl

theorem ensureType_eq : t.ensureType name = { t with types := (t.ensureType name).types } := by
  unfold ensureType
  split <;> rfl

theorem engine_withPlan (plan : NewPlan) : (t.withPlan plan).engine = t.engine := by
  unfold withPlan
  split <;> rfl

end Tables

theorem Tables.versions_withPlan (plan : NewPlan) (t : Tables) : (t.withPlan plan).versions = t.versions := by
  unfold withPlan
  split <;> rfl

/-- A database that compares names by code point. -/
def Engine.ByCodePoint (engine : Engine) : Prop :=
  ∀ names, (engine.nameOrder names).Pairwise (· ≤ ·)

namespace Alike

variable {m : Memory} {t : Tables}

theorem isRegistered_eq (h : Alike m t) (imageType : String) :
    m.isRegistered imageType = (t.type? imageType).isSome := by
  rw [Bool.eq_iff_iff, Memory.isRegistered_iff, Tables.isSome_type?_iff, h.types]

theorem length_plans (h : Alike m t) : m.plans.length = t.plans.length := by
  rw [← m.length_unsignedPlans, h.plans, t.length_unsignedPlans]

/-- Both have an active plan of a type, the same one, or neither has. -/
theorem active (h : Alike m t) (ht : t.Sound) (imageType : String) :
    (m.active? imageType).map (fun p => p.plan.unsigned) =
      (t.activePlans [imageType]).head?.map fun row => (t.planOf row).unsigned := by
  rw [← h.filed.activeIn_unsignedPlans, h.plans, ht.activeIn_unsignedPlans]

/-- Where the database compares names by code point, both tell their image types in the same order. -/
theorem typeNames_eq (h : Alike m t) (hnames : t.engine.ByCodePoint) : m.typeNames = t.typeNames := by
  have hperm := t.engine.nameOrder_perm (t.types.map TypeRow.name)
  have hdistinct : t.typeNames.Nodup := hperm.nodup_iff.mpr h.distinct
  have hascending : Names.Ascending t.typeNames :=
    ((hnames _).and hdistinct).imp fun hab => Std.lt_of_le_of_ne hab.1 hab.2
  refine (Names.ascending_ordered _).eq_of_mem_iff hascending fun name => ?_
  rw [Names.mem_ordered, h.types]
  exact Tables.mem_typeNames.symm

/-- The registrations are counted in memory and dated in the tables. Where the dates ascend as the
    registrations do, both have the same latest active versions. -/
theorem latestActive_eq (h : Alike m t) (hm : m.Numbered)
    (ht : t.versions.Pairwise fun a b => a.createdAt < b.createdAt) (imageTypes : List String) :
    m.latestActive imageTypes = t.latestActive imageTypes := by
  unfold Memory.latestActive Tables.latestActive
  refine List.filterMap_congr fun imageType _ => ?_
  rw [Memory.newestIn_terms hm, Tables.newestIn_terms ht, h.versions]

theorem empty (engine : Engine) : Alike {} { engine } :=
  ⟨nofun, rfl, .nil, rfl, rfl⟩

theorem addType (h : Alike m t) (name : String) (description : Option String) :
    Alike (m.addType name description) (t.putType name description) where
  filed := h.filed.of_plans_eq (m.plans_addType name description)
  distinct := by
    rw [Tables.names_putType]
    exact nodup_withName h.distinct name
  types := by rw [Memory.names_addType, Tables.names_putType, h.types]
  versions := by
    rw [Memory.versions_addType, Tables.putType_eq]
    exact h.versions
  plans := by
    have hmemory : (m.addType name description).unsignedPlans = m.unsignedPlans := by
      unfold Memory.unsignedPlans
      rw [Memory.plans_addType]
    rw [hmemory, Tables.putType_eq]
    exact h.plans

theorem ensureType (h : Alike m t) (name : String) : Alike (m.ensureType name) (t.ensureType name) where
  filed := h.filed.of_plans_eq (m.plans_ensureType name)
  distinct := by
    rw [Tables.names_ensureType]
    exact nodup_withName h.distinct name
  types := by rw [Memory.names_ensureType, Tables.names_ensureType, h.types]
  versions := by
    rw [Memory.versions_ensureType, Tables.ensureType_eq]
    exact h.versions
  plans := by
    have hmemory : (m.ensureType name).unsignedPlans = m.unsignedPlans := by
      unfold Memory.unsignedPlans
      rw [Memory.plans_ensureType]
    rw [hmemory, Tables.ensureType_eq]
    exact h.plans

theorem putVersion (h : Alike m t) {row : VersionRow} {state : VersionState} (hstate : state.name = row.state) :
    Alike ((m.ensureType row.imageType).addVersion row.imageType row.version state) (t.putVersion row) where
  filed := (h.ensureType row.imageType).filed
  distinct := (h.ensureType row.imageType).distinct
  types := (h.ensureType row.imageType).types
  versions := by
    unfold Memory.addVersion Tables.putVersion
    dsimp only
    rw [List.map_append, List.map_append, (h.ensureType row.imageType).versions]
    exact congrArg (fun word => _ ++ [(row.imageType, row.version, word)]) hstate
  plans := (h.ensureType row.imageType).plans

theorem setState (h : Alike m t) (imageType version : String) (state : VersionState) :
    Alike (m.setState imageType version state) (t.setState imageType version state.name) where
  filed := h.filed
  types := h.types
  distinct := h.distinct
  versions := by
    rw [Memory.terms_setState, h.versions, Tables.terms_setState]
  plans := h.plans

theorem withPlan (h : Alike m t) (ht : t.Sound) (plan : NewPlan) : Alike (m.withPlan plan) (t.withPlan plan) where
  filed := h.filed.withPlan plan
  distinct := by
    unfold Tables.withPlan
    split <;> exact h.distinct
  types := by
    unfold Memory.withPlan Tables.withPlan
    split <;> exact h.types
  versions := by
    rw [Tables.versions_withPlan]
    unfold Memory.withPlan
    split <;> exact h.versions
  plans := by rw [h.filed.unsignedPlans_withPlan, h.plans, ht.unsignedPlans_withPlan]

theorem replaceEntries (h : Alike m t) (ht : t.Sound) {imageType : String} {row : PlanRow}
    (hrow : (t.activePlans [imageType]).head? = some row) (entries : List Entry) (user : Option String) :
    Alike (m.replaceEntries imageType entries) (t.replaceShares row.number entries user) where
  filed := h.filed.replaceEntries imageType entries
  distinct := h.distinct
  types := h.types
  versions := h.versions
  plans := by rw [h.filed.unsignedPlans_replaceEntries, h.plans, ht.unsignedPlans_replaceShares imageType hrow]

end Alike

end ImageRollout
