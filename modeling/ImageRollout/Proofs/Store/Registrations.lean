import ImageRollout.Proofs.Reached
import ImageRollout.Proofs.Store.Versions

/-! What a store in memory holds of its versions, told from the changes that it was asked for. A
    registration has the state of the last change of its version after it, or the one that it was made
    with. The latest active version of an image type is the last registration that has the active state. -/

namespace ImageRollout

/-! ### What changes say of versions -/

/-- A registration without its number. -/
structure Held where
  imageType : String
  version : String
  state : VersionState
  deriving DecidableEq, Repr

def Registration.held (r : Registration) : Held :=
  ⟨r.imageType, r.version, r.state⟩

/-- The registrations in the order they were made. -/
def Memory.held (m : Memory) : List Held :=
  m.versions.map Registration.held

namespace Change

/-- The registration that a change makes. A word that is no state makes none. -/
def registers? : Change → Option Held
  | addVersion row => (VersionState.ofName? row.state).map fun state => ⟨row.imageType, row.version, state⟩
  | _ => none

/-- The state that a change gives to the registrations of a version that there are. -/
def gives? (imageType version : String) : Change → Option VersionState
  | setState otherType other word =>
    if otherType = imageType ∧ other = version then VersionState.ofName? word else none
  | _ => none

/-- The state that a change tells of a version, be it that it registers it or that it changes it. -/
def records? (imageType version : String) : Change → Option VersionState
  | addVersion row =>
    if row.imageType = imageType ∧ row.version = version then VersionState.ofName? row.state else none
  | c => c.gives? imageType version

theorem records?_eq_some_iff {c : Change} {imageType version : String} {state : VersionState} :
    c.records? imageType version = some state ↔
      c.registers? = some ⟨imageType, version, state⟩ ∨ c.gives? imageType version = some state := by
  cases c with
  | addVersion row =>
    simp only [records?, registers?, gives?, Option.ite_none_right_eq_some, Option.map_eq_some_iff, Held.mk.injEq,
      reduceCtorEq, or_false]
    constructor
    · rintro ⟨⟨rfl, rfl⟩, hstate⟩
      exact ⟨state, hstate, rfl, rfl, rfl⟩
    · rintro ⟨_, hstate, rfl, rfl, rfl⟩
      exact ⟨⟨rfl, rfl⟩, hstate⟩
  | addType | setState | create | update => simp [records?, registers?]

theorem gives?_eq_none_of_records? {c : Change} {imageType version : String}
    (h : c.records? imageType version = none) : c.gives? imageType version = none := by
  rw [Option.eq_none_iff_forall_ne_some] at h ⊢
  exact fun state hstate => h state (records?_eq_some_iff.mpr (Or.inr hstate))

/-- The last that the changes of a run tell. -/
def last? (f : Change → Option VersionState) (run : List Change) : Option VersionState :=
  run.reverse.findSome? f

section

variable (f : Change → Option VersionState)

theorem last?_append (run later : List Change) : last? f (run ++ later) = (last? f later).or (last? f run) := by
  unfold last?
  rw [List.reverse_append, List.findSome?_append]

theorem last?_concat (run : List Change) (c : Change) : last? f (run ++ [c]) = (f c).or (last? f run) := by
  rw [last?_append]
  cases h : f c <;> simp [last?, h]

theorem last?_cons (c : Change) (later : List Change) : last? f (c :: later) = (last? f later).or (f c) := by
  rw [← List.singleton_append, last?_append]
  cases h : f c <;> simp [last?, h]

variable {f} {run : List Change}

theorem last?_eq_none_iff : last? f run = none ↔ ∀ c ∈ run, f c = none := by
  unfold last?
  rw [List.findSome?_eq_none_iff]
  simp only [List.mem_reverse]

theorem last?_eq_some_iff {state : VersionState} :
    last? f run = some state ↔ ∃ before c later, run = before ++ c :: later ∧ f c = some state ∧ ∀ d ∈ later, f d = none := by
  unfold last?
  rw [List.findSome?_eq_some_iff]
  constructor
  · rintro ⟨later, c, before, hsplit, hc, hlater⟩
    refine ⟨before.reverse, c, later.reverse, ?_, hc, fun d hd => hlater d (List.mem_reverse.mp hd)⟩
    rw [← List.reverse_reverse run, hsplit]
    simp
  · rintro ⟨before, c, later, rfl, hc, hlater⟩
    exact ⟨later.reverse, c, before.reverse, by simp, hc, fun d hd => hlater d (List.mem_reverse.mp hd)⟩

theorem last?_congr {g : Change → Option VersionState} (h : ∀ c ∈ run, f c = g c) : last? f run = last? g run := by
  induction run with
  | nil => rfl
  | cons c later ih =>
    rw [last?_cons, last?_cons, h c List.mem_cons_self, ih fun d hd => h d (List.mem_cons_of_mem c hd)]

end

end Change

namespace Held

/-- A registration after a change. -/
def after (c : Change) (h : Held) : Held :=
  { h with state := (c.gives? h.imageType h.version).getD h.state }

/-- A registration after later changes: the last one that gives its version a state decides. -/
def atEnd (later : List Change) (h : Held) : Held :=
  { h with state := (Change.last? (Change.gives? h.imageType h.version) later).getD h.state }

@[simp] theorem atEnd_nil (h : Held) : h.atEnd [] = h := rfl

theorem atEnd_concat (later : List Change) (c : Change) (h : Held) :
    h.atEnd (later ++ [c]) = (h.atEnd later).after c := by
  unfold atEnd after
  rw [Change.last?_concat]
  cases c.gives? h.imageType h.version <;> rfl

theorem map_after_eq_self {c : Change} (hc : ∀ imageType version, c.gives? imageType version = none)
    (registrations : List Held) : registrations.map (after c) = registrations := by
  have hsame (h : Held) : h.after c = h := by
    unfold after
    rw [hc]
    rfl
  rw [List.map_congr_left fun h _ => hsame h, List.map_id']

end Held

/-- The registrations that a run of changes leaves, in the order they were made. -/
def registrations : List Change → List Held
  | [] => []
  | c :: later => (c.registers?.map (Held.atEnd later)).toList ++ registrations later

/-- A change of the run makes a registration, and `h` is what becomes of it by the changes after it. -/
def Registered (run later : List Change) (h : Held) : Prop :=
  ∃ before c first, run = before ++ c :: later ∧ c.registers? = some first ∧ h = first.atEnd later

/-! ### A step and a run -/

theorem registrations_concat (run : List Change) (c : Change) :
    registrations (run ++ [c]) = (registrations run).map (Held.after c) ++ c.registers?.toList := by
  induction run with
  | nil => cases h : c.registers? <;> simp [registrations, h]
  | cons first later ih =>
    have hfirst : (first.registers?.map (Held.atEnd (later ++ [c]))).toList =
        (first.registers?.map (Held.atEnd later)).toList.map (Held.after c) := by
      cases first.registers? with
      | none => rfl
      | some h => exact congrArg (fun h => [h]) (h.atEnd_concat later c)
    rw [List.cons_append, registrations, registrations, ih, hfirst, List.map_append, List.append_assoc]

namespace Memory

theorem held_of_versions_eq {m m' : Memory} (h : m'.versions = m.versions) : m'.held = m.held :=
  congrArg (List.map Registration.held) h

theorem held_addVersion (imageType version : String) (state : VersionState) (m : Memory) :
    (m.addVersion imageType version state).held = m.held ++ [⟨imageType, version, state⟩] := by
  unfold held addVersion
  rw [List.map_append]
  rfl

theorem held_setState (imageType version : String) (state : VersionState) (m : Memory) :
    (m.setState imageType version state).held =
      m.held.map fun h => if h.imageType = imageType ∧ h.version = version then { h with state } else h := by
  unfold held setState
  rw [List.map_map, List.map_map]
  refine List.map_congr_left fun r _ => ?_
  exact apply_ite Registration.held _ _ _

/-- A change goes through the registrations that there are, and may add one. -/
theorem held_step (m : Memory) (c : Change) :
    (c.onMemory.run m).state.held = m.held.map (Held.after c) ++ c.registers?.toList := by
  -- Only two kinds of change have to do with versions.
  have hother (hgives : ∀ imageType version, c.gives? imageType version = none) (hnone : c.registers? = none) :
      m.held.map (Held.after c) ++ c.registers?.toList = m.held := by
    rw [hnone, Held.map_after_eq_self hgives, Option.toList_none, List.append_nil]
  cases c with
  | addType name description =>
    rw [hother (fun _ _ => rfl) rfl]
    exact held_of_versions_eq (m.versions_addType name description)
  | addVersion row =>
    have hensure := held_of_versions_eq (m.versions_ensureType row.imageType)
    rw [Change.state_addVersion, Held.map_after_eq_self fun _ _ => rfl, Change.registers?]
    cases VersionState.ofName? row.state with
    | none => rw [hensure, Option.map_none, Option.toList_none, List.append_nil]
    | some state => rw [held_addVersion, hensure, Option.map_some, Option.toList_some]
  | setState imageType version word =>
    rw [Change.state_setState]
    cases hword : VersionState.ofName? word with
    | none => rw [hother (fun _ _ => by simp [Change.gives?, hword]) rfl]
    | some state =>
      rw [held_setState]
      refine Eq.trans (List.map_congr_left fun h _ => ?_) (List.append_nil _).symm
      simp only [Held.after, Change.gives?, hword, eq_comm (a := imageType), eq_comm (a := version)]
      split <;> rfl
  | create draft user =>
    rw [hother (fun _ _ => rfl) rfl, Change.state_create]
    split
    · split
      · exact held_of_versions_eq (m.versions_withPlan _)
      · rfl
    · rfl
  | update imageType draft user =>
    rw [hother (fun _ _ => rfl) rfl, Change.state_update]
    split <;> rfl

theorem held_after (run : List Change) : (after run).held = registrations run := by
  induction run using List.reverseRecOn with
  | nil => rfl
  | append_singleton before c ih => rw [after_concat, held_step, ih, registrations_concat]

end Memory

/-! ### Registrations by their place in the run -/

theorem Registered.cons {run later : List Change} {h : Held} (hreg : Registered run later h) (c : Change) :
    Registered (c :: run) later h := by
  obtain ⟨before, d, first, rfl, hfirst, hend⟩ := hreg
  exact ⟨c :: before, d, first, rfl, hfirst, hend⟩

theorem mem_registrations {run : List Change} {h : Held} :
    h ∈ registrations run ↔ ∃ later, Registered run later h := by
  induction run with
  | nil => simp [registrations, Registered]
  | cons c later ih =>
    rw [registrations, List.mem_append, Option.mem_toList, Option.map_eq_some_iff, ih]
    constructor
    · rintro (⟨first, hfirst, rfl⟩ | ⟨rest, hreg⟩)
      · exact ⟨later, [], c, first, rfl, hfirst, rfl⟩
      · exact ⟨rest, hreg.cons c⟩
    · rintro ⟨rest, before, d, first, hsplit, hfirst, rfl⟩
      cases before with
      | nil =>
        obtain ⟨rfl, rfl⟩ := List.cons.inj hsplit
        exact Or.inl ⟨first, hfirst, rfl⟩
      | cons _ before =>
        obtain ⟨-, rfl⟩ := List.cons.inj hsplit
        exact Or.inr ⟨rest, before, d, first, rfl, hfirst, rfl⟩

/-- The last registration of a kind is followed by none of that kind. -/
theorem registered_of_getLast? {p : Held → Bool} {run : List Change} {h : Held}
    (hlast : ((registrations run).filter p).getLast? = some h) :
    ∃ later, Registered run later h ∧ ∀ rest other, Registered later rest other → p other = false := by
  induction run with
  | nil => cases hlast
  | cons c later ih =>
    rw [registrations, List.filter_append, List.getLast?_append] at hlast
    -- The last of the later ones is the last of all; only without any does the first change count.
    cases hrest : ((registrations later).filter p).getLast? with
    | some found =>
      rw [hrest] at hlast
      cases hlast
      obtain ⟨rest, hreg, hnone⟩ := ih hrest
      exact ⟨rest, hreg.cons c, hnone⟩
    | none =>
      rw [hrest, Option.none_or] at hlast
      obtain ⟨hmem, -⟩ := List.mem_filter.mp (List.mem_of_getLast? hlast)
      obtain ⟨first, hfirst, rfl⟩ := Option.map_eq_some_iff.mp (Option.mem_toList.mp hmem)
      refine ⟨later, ⟨[], c, first, rfl, hfirst, rfl⟩, fun rest other hreg => ?_⟩
      have hother := List.filter_eq_nil_iff.mp (List.getLast?_eq_none_iff.mp hrest) other
        (mem_registrations.mpr ⟨rest, hreg⟩)
      exact Bool.eq_false_iff.mpr hother

/-! ### The latest active version -/

/-- The version is that of the last registration of its type that is active after the run. -/
def LastActive (run : List Change) (imageType version : String) : Prop :=
  ∃ later, Registered run later ⟨imageType, version, .active⟩ ∧
    ∀ rest other, ¬Registered later rest ⟨imageType, other, .active⟩

/-- An active registration of the image type. -/
def Held.serves (imageType : String) (h : Held) : Bool :=
  h.imageType = imageType ∧ h.state = .active

theorem Held.serves_iff {imageType : String} {h : Held} :
    h.serves imageType ↔ h.imageType = imageType ∧ h.state = .active :=
  decide_eq_true_iff

theorem Held.eq_of_serves {imageType : String} {h : Held} (hserves : h.serves imageType) :
    h = ⟨imageType, h.version, .active⟩ := by
  obtain ⟨rfl, hstate⟩ := serves_iff.mp hserves
  rw [← hstate]

namespace Memory

theorem newestActive?_after (run : List Change) (imageType : String) :
    ((after run).newestActive? imageType).map Registration.held =
      ((registrations run).filter (Held.serves imageType)).getLast? := by
  rw [newestActive?_eq_getLast? (numbered_after run).ascending, ← held_after, held, List.filter_map, List.getLast?_map,
    versionsOf, List.filter_filter]
  congr 3
  funext r
  rw [Bool.eq_iff_iff, Function.comp_apply, Held.serves_iff]
  simp [Registration.held, and_comm]

theorem lastActive_of_newestActive? {run : List Change} {imageType : String} {r : Registration}
    (h : (after run).newestActive? imageType = some r) : LastActive run imageType r.version := by
  have hlast := newestActive?_after run imageType
  rw [h, Option.map_some] at hlast
  obtain ⟨hmem, hserves⟩ := List.mem_filter.mp (List.mem_of_getLast? hlast.symm)
  obtain ⟨later, hreg, hnone⟩ := registered_of_getLast? hlast.symm
  rw [Held.eq_of_serves hserves] at hreg
  refine ⟨later, hreg, fun rest other hother => ?_⟩
  exact Bool.eq_false_iff.mp (hnone rest _ hother) (Held.serves_iff.mpr ⟨rfl, rfl⟩)

theorem isSome_newestActive?_after {run : List Change} {imageType : String} :
    ((after run).newestActive? imageType).isSome ↔
      ∃ version later, Registered run later ⟨imageType, version, .active⟩ := by
  constructor
  · intro h
    obtain ⟨r, hr⟩ := Option.isSome_iff_exists.mp h
    obtain ⟨later, hreg, -⟩ := lastActive_of_newestActive? hr
    exact ⟨r.version, later, hreg⟩
  · rintro ⟨version, later, hreg⟩
    have hmem : ⟨imageType, version, .active⟩ ∈ (registrations run).filter (Held.serves imageType) :=
      List.mem_filter.mpr ⟨mem_registrations.mpr ⟨later, hreg⟩, Held.serves_iff.mpr ⟨rfl, rfl⟩⟩
    rw [← Option.isSome_map (f := Registration.held), newestActive?_after, Option.isSome_iff_ne_none, Ne,
      List.getLast?_eq_none_iff]
    exact List.ne_nil_of_mem hmem

theorem mem_latestActive {m : Memory} {imageTypes : List String} {row : ActiveVersion} :
    row ∈ m.latestActive imageTypes ↔
      row.imageType ∈ imageTypes ∧ ∃ r, m.newestActive? row.imageType = some r ∧ r.version = row.version := by
  unfold latestActive
  rw [List.mem_filterMap]
  constructor
  · rintro ⟨imageType, hmem, hrow⟩
    obtain ⟨r, hr, rfl⟩ := Option.map_eq_some_iff.mp hrow
    exact ⟨Names.mem_ordered.mp hmem, r, hr, rfl⟩
  · rintro ⟨hmem, r, hr, hversion⟩
    refine ⟨row.imageType, Names.mem_ordered.mpr hmem, ?_⟩
    rw [hr, Option.map_some, hversion]

theorem imageTypes_latestActive (m : Memory) (imageTypes : List String) :
    (m.latestActive imageTypes).map ActiveVersion.imageType =
      (Names.ordered imageTypes).filter fun imageType => (m.newestActive? imageType).isSome := by
  unfold latestActive
  rw [List.map_filterMap, ← List.filterMap_eq_filter]
  refine List.filterMap_congr fun imageType _ => ?_
  cases h : m.newestActive? imageType <;> simp [h, Option.guard]

/-- The store tells the latest active versions of a history: a row for each requested type with an
    active registration, in code point order, with the version of the last one. -/
theorem latestActive_tells_the_run (run : List Change) (imageTypes : List String) :
    ∃ rows, (source.latestActive imageTypes).run (after run) = ⟨.ok (.answered (some rows)), [], after run⟩ ∧
      Names.Ascending (rows.map ActiveVersion.imageType) ∧
      (∀ imageType, imageType ∈ rows.map ActiveVersion.imageType ↔
        imageType ∈ imageTypes ∧ ∃ version later, Registered run later ⟨imageType, version, .active⟩) ∧
      ∀ row ∈ rows, LastActive run row.imageType row.version := by
  refine ⟨(after run).latestActive imageTypes, rfl, ?_, fun imageType => ?_, fun row hrow => ?_⟩
  · rw [imageTypes_latestActive]
    exact (Names.ascending_ordered imageTypes).filter _
  · rw [imageTypes_latestActive, List.mem_filter, Names.mem_ordered, isSome_newestActive?_after]
  · obtain ⟨-, r, hr, hversion⟩ := mem_latestActive.mp hrow
    rw [← hversion]
    exact lastActive_of_newestActive? hr

/-- Two versions of an image type. The second one is deprecated, and active again once the first one is
    deprecated. -/
def reactivation : List Change :=
  [.addVersion ⟨0, "spark", "1.0", "active", 0⟩, .addVersion ⟨1, "spark", "2.0", "active", 1⟩,
    .setState "spark" "2.0" "deprecated", .setState "spark" "1.0" "deprecated", .setState "spark" "2.0" "active"]

theorem latestActive_tells_the_run_sample :
    (after reactivation).latestActive ["spark", "hive"] = [⟨"spark", "2.0"⟩] ∧ LastActive reactivation "spark" "2.0" := by
  have hlatest : (after reactivation).latestActive ["spark", "hive"] = [⟨"spark", "2.0"⟩] := by decide_cbv
  obtain ⟨rows, hrun, -, -, hlast⟩ := latestActive_tells_the_run reactivation ["spark", "hive"]
  obtain rfl : (after reactivation).latestActive ["spark", "hive"] = rows := by
    cases congrArg Effect.result hrun
    rfl
  exact ⟨hlatest, hlast ⟨"spark", "2.0"⟩ (by rw [hlatest]; exact List.mem_singleton_self _)⟩

end Memory

/-! ### The state that was recorded last -/

/-- The state that a run recorded last of a version, by registering it or by changing it. -/
def recorded? (run : List Change) (imageType version : String) : Option VersionState :=
  Change.last? (Change.records? imageType version) run

/-- A version that was registered before is registered again, and nothing is recorded of it afterwards. -/
def RegisteredAgain (run : List Change) (h : Held) : Prop :=
  ∃ before c later, run = before ++ c :: later ∧ c.registers? = some h ∧
    (∃ d ∈ before, ∃ state, d.registers? = some ⟨h.imageType, h.version, state⟩) ∧
    ∀ d ∈ later, d.records? h.imageType h.version = none

/-- No version is registered twice. -/
def RegisteredOnce (run : List Change) : Prop :=
  ((run.filterMap Change.registers?).map fun h => (h.imageType, h.version)).Nodup

instance (run : List Change) : Decidable (RegisteredOnce run) :=
  inferInstanceAs (Decidable (List.Nodup _))

theorem RegisteredOnce.not_again {before later : List Change} {c d : Change} {h other : Held}
    (honce : RegisteredOnce (before ++ c :: later)) (hc : c.registers? = some h) (hd : d ∈ later)
    (hother : d.registers? = some other) : ¬(other.imageType = h.imageType ∧ other.version = h.version) := by
  rintro ⟨htype, hversion⟩
  unfold RegisteredOnce at honce
  rw [List.filterMap_append, List.filterMap_cons_some hc, List.map_append, List.map_cons] at honce
  refine (List.nodup_cons.mp honce.of_append_right).1 (List.mem_map.mpr ⟨other, ?_, ?_⟩)
  · exact List.mem_filterMap.mpr ⟨d, hd, hother⟩
  · rw [htype, hversion]

/-- After the registration of a version, what is recorded last is its state at the end, unless the version
    is registered again. -/
theorem recorded?_of_registered {before later : List Change} {c : Change} {first : Held}
    (hfirst : c.registers? = some first)
    (hlater : ∀ d ∈ later, ∀ other, d.registers? = some other →
      ¬(other.imageType = first.imageType ∧ other.version = first.version)) :
    recorded? (before ++ c :: later) first.imageType first.version = some (first.atEnd later).state := by
  have hgives : Change.last? (Change.records? first.imageType first.version) later =
      Change.last? (Change.gives? first.imageType first.version) later := by
    refine Change.last?_congr fun d hd => Option.ext fun state => ?_
    rw [Change.records?_eq_some_iff]
    exact or_iff_right fun hregisters => hlater d hd _ hregisters ⟨rfl, rfl⟩
  have hc : c.records? first.imageType first.version = some first.state :=
    Change.records?_eq_some_iff.mpr (Or.inl hfirst)
  unfold recorded? Held.atEnd
  rw [Change.last?_append, Change.last?_cons, hgives, hc]
  cases Change.last? (Change.gives? first.imageType first.version) later <;> rfl

/-- A registration has the state that was recorded last, unless its version was registered again in
    another state. -/
theorem Registered.recorded?_or_again {run later : List Change} {h : Held} (hreg : Registered run later h) :
    recorded? run h.imageType h.version = some h.state ∨
      ∃ state ≠ h.state, RegisteredAgain run ⟨h.imageType, h.version, state⟩ := by
  obtain ⟨before, c, first, rfl, hfirst, rfl⟩ := hreg
  cases hlast : Change.last? (Change.records? first.imageType first.version) later with
  | none =>
    refine Or.inl (recorded?_of_registered hfirst fun d hd other hother heq => ?_)
    have hrecords : d.records? first.imageType first.version = some other.state :=
      Change.records?_eq_some_iff.mpr (Or.inl (by rw [hother, ← heq.1, ← heq.2]))
    rw [Change.last?_eq_none_iff.mp hlast d hd] at hrecords
    cases hrecords
  | some state =>
    have hrecorded : recorded? (before ++ c :: later) first.imageType first.version = some state := by
      unfold recorded?
      rw [Change.last?_append, Change.last?_cons, hlast]
      rfl
    -- What was recorded last was told by a registration or by a change of state.
    obtain ⟨between, d, rest, rfl, hd, hrest⟩ := Change.last?_eq_some_iff.mp hlast
    rcases Change.records?_eq_some_iff.mp hd with hregisters | hgives
    · by_cases hstate : state = (first.atEnd (between ++ d :: rest)).state
      · exact Or.inl (hstate ▸ hrecorded)
      · refine Or.inr ⟨state, hstate, before ++ c :: between, d, rest, by simp, hregisters, ?_, hrest⟩
        exact ⟨c, by simp, first.state, hfirst⟩
    · -- The change that gives the state goes to every registration of the version.
      have hend : Change.last? (Change.gives? first.imageType first.version) (between ++ d :: rest) = some state :=
        Change.last?_eq_some_iff.mpr
          ⟨between, d, rest, rfl, hgives, fun e he => Change.gives?_eq_none_of_records? (hrest e he)⟩
      refine Or.inl (hrecorded.trans (congrArg some ?_))
      unfold Held.atEnd
      rw [hend]
      rfl

theorem Registered.recorded?_of_once {run later : List Change} {h : Held} (hreg : Registered run later h)
    (honce : RegisteredOnce run) : recorded? run h.imageType h.version = some h.state := by
  obtain ⟨before, c, first, rfl, hfirst, rfl⟩ := hreg
  exact recorded?_of_registered hfirst fun d hd other => honce.not_again hfirst hd

theorem Memory.exists_registered {run : List Change} {r : Registration} (hr : r ∈ (after run).versions) :
    ∃ later, Registered run later r.held := by
  rw [← mem_registrations, ← held_after]
  exact List.mem_map_of_mem hr

theorem Memory.exists_registered_of_mem_latestActive {run : List Change} {imageTypes : List String} {row : ActiveVersion}
    (hrow : row ∈ (after run).latestActive imageTypes) :
    ∃ later, Registered run later ⟨row.imageType, row.version, .active⟩ := by
  obtain ⟨-, r, hr, hversion⟩ := mem_latestActive.mp hrow
  obtain ⟨later, hreg, -⟩ := lastActive_of_newestActive? hr
  exact ⟨later, hversion ▸ hreg⟩

/-- A version that is handed out is active by what was recorded of it last, unless it was registered
    again in another state. Where no version is registered twice, the store keeps one state of each, the
    one that was recorded last, and hands out none that is superseded. -/
theorem Memory.superseded_only_by_registering_again (run : List Change) :
    (∀ imageTypes, ∀ row ∈ (after run).latestActive imageTypes,
      recorded? run row.imageType row.version = some .active ∨
        ∃ state ≠ .active, RegisteredAgain run ⟨row.imageType, row.version, state⟩) ∧
    (RegisteredOnce run →
      (∀ r ∈ (after run).versions, recorded? run r.imageType r.version = some r.state) ∧
        ∀ imageTypes, ∀ row ∈ (after run).latestActive imageTypes,
          recorded? run row.imageType row.version = some .active) := by
  refine ⟨fun imageTypes row hrow => ?_, fun honce => ⟨fun r hr => ?_, fun imageTypes row hrow => ?_⟩⟩
  · obtain ⟨later, hreg⟩ := exists_registered_of_mem_latestActive hrow
    exact hreg.recorded?_or_again
  · obtain ⟨later, hreg⟩ := exists_registered hr
    exact hreg.recorded?_of_once honce
  · obtain ⟨later, hreg⟩ := exists_registered_of_mem_latestActive hrow
    exact hreg.recorded?_of_once honce

/-- The second version of an image type is deprecated after it was registered. -/
def withdrawal : List Change :=
  [.addVersion ⟨0, "spark", "1.0", "active", 0⟩, .addVersion ⟨1, "spark", "2.0", "active", 1⟩,
    .setState "spark" "2.0" "deprecated"]

theorem Memory.withdrawn_is_not_handed_out :
    RegisteredOnce withdrawal ∧
      recorded? withdrawal "spark" "2.0" = some .deprecated ∧
      (∀ r ∈ (after withdrawal).versions, recorded? withdrawal r.imageType r.version = some r.state) ∧
      (after withdrawal).latestActive ["spark"] = [⟨"spark", "1.0"⟩] ∧
      recorded? withdrawal "spark" "1.0" = some .active := by
  obtain ⟨-, honce⟩ := superseded_only_by_registering_again withdrawal
  obtain ⟨hversions, hrows⟩ := honce (by decide_cbv)
  have hlatest : (after withdrawal).latestActive ["spark"] = [⟨"spark", "1.0"⟩] := by decide_cbv
  exact ⟨by decide_cbv, by decide_cbv, hversions, hlatest, hrows ["spark"] ⟨"spark", "1.0"⟩ (by simp [hlatest])⟩

/-- A version is registered again, as a deprecated one. -/
def registeredAgain : List Change :=
  [.addVersion ⟨0, "spark", "1.0", "active", 0⟩, .addVersion ⟨1, "spark", "1.0", "deprecated", 1⟩]

/-- The store keeps both registrations and hands the deprecated version out by the first. -/
theorem Memory.superseded_is_handed_out :
    ∃ row ∈ (after registeredAgain).latestActive ["spark"],
      recorded? registeredAgain row.imageType row.version = some .deprecated :=
  ⟨⟨"spark", "1.0"⟩, by decide_cbv, by decide_cbv⟩

end ImageRollout
