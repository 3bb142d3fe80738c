import ImageRollout.Proofs.Reached
import ImageRollout.Proofs.Store.Portion

/-! Image types are apart. All of them share the lists and the numbers of a store in memory. Still, how
    the changes of one type end, and what the store tells about the type after each of them, comes from
    these changes alone: a run can do without the changes of the other types. -/

namespace ImageRollout

/-- The image type that a change is asked for. A new plan is for the type that its draft names, an update
    for the one that it is asked for, whatever its draft names. -/
def Change.imageType : Change → String
  | addType name _ => name
  | addVersion row => row.imageType
  | setState imageType _ _ => imageType
  | create draft _ => draft.imageType.val
  | update imageType _ _ => imageType

/-- How a change ends: in a failure, or with the plan that it is about. The plan is told by its place
    among the plans of its type, since its number counts the plans of all. -/
def Change.ending (c : Change) (m : Memory) : Except Failure (Option (Option Nat)) :=
  let effect := c.onMemory.run m
  effect.result.map fun about => about.map (effect.state.place? c.imageType)

/-- What the store tells about an image type, with the active plan told by its place. -/
structure Account where
  registration : Option (Option String)
  plans : List Plan
  active : Option (Option Nat × Plan)
  latest : List ActiveVersion

namespace Memory

def account (m : Memory) (imageType : String) : Account where
  registration := m.types.lookup imageType
  plans := (m.plansOf imageType).map fun p => p.plan.unnumbered
  active := (m.active? imageType).map fun p => (m.place? imageType p.id, p.plan.unnumbered)
  latest := m.latestActive [imageType]

/-- The changes of an image type in a run: how each of them ends, and what the store then tells about
    the type. -/
def history (imageType : String) : List Change → Memory → List (Except Failure (Option (Option Nat)) × Account)
  | [], _ => []
  | c :: rest, m =>
    let next := (c.onMemory.run m).state
    if c.imageType = imageType then (c.ending m, next.account imageType) :: history imageType rest next
    else history imageType rest next

end Memory

/-! ### One change -/

namespace Change

variable {m m' : Memory} {imageType : String}

theorem isLocal (c : Change) : Memory.Local c.imageType fun m => (c.onMemory.run m).state := by
  cases c with
  | addType name description => exact Memory.local_addType name description
  | addVersion row =>
    simp only [state_addVersion]
    split
    · exact (Memory.local_addVersion _ _ _).comp (Memory.local_ensureType row.imageType)
    · exact Memory.local_ensureType row.imageType
  | setState name version word =>
    simp only [state_setState]
    split
    · exact Memory.local_setState name version _
    · exact .id
  | create draft user =>
    simp only [state_create]
    split
    · exact (Memory.local_withPlan (draft.stampNew user).toNewPlan).guard fun p => p.registration.isSome
    · exact .id
  | update name draft user =>
    simp only [state_update]
    split
    · exact Memory.local_replaceEntries name _
    · exact .id

section

variable (h : m.Numbered) (draft : PlanDraft) (user : Option String)

theorem ending_setState (name version word : String) :
    (setState name version word).ending m =
      match VersionState.ofName? word with
      | some _ => .ok none
      | none =>
        if (m.portion name).versions.any fun v => v.1 = version then .error (.misuse (.unknownState word))
        else .ok none := by
  have hany : (m.versions.any fun r => r.imageType = name ∧ r.version = version) =
      (m.portion name).versions.any fun v => v.1 = version := by
    unfold Memory.portion Memory.versionsOf
    rw [List.any_map, List.any_filter]
    simp
  unfold ending
  dsimp only
  rw [result_setState, hany]
  cases VersionState.ofName? word with
  | some _ => rfl
  | none =>
    dsimp only
    split <;> rfl

include h in
theorem ending_create :
    (create draft user).ending m =
      match checkPlan (draft.stampNew user).toEntries with
      | .ok () =>
        if (m.portion draft.imageType.val).registration.isSome then
          .ok (some (some (m.portion draft.imageType.val).plans.length))
        else .error (.domain (.unknownImageType draft.imageType.val))
      | .error fault => .error (.domain (.invalidPlan fault)) := by
  unfold ending
  dsimp only
  rw [result_create, state_create]
  cases checkPlan (draft.stampNew user).toEntries with
  | ok _ =>
    have hplace := h.place?_withPlan (draft.stampNew user).toNewPlan
    have hregistered : m.isRegistered draft.imageType.val = (m.portion draft.imageType.val).registration.isSome := rfl
    have hcount : (m.portion draft.imageType.val).plans.length = (m.plansOf draft.imageType.val).length :=
      List.length_map _
    rw [hregistered, hcount]
    cases (m.portion draft.imageType.val).registration.isSome with
    | true => exact congrArg (fun place => Except.ok (some place)) hplace
    | false => rfl
  | error _ => rfl

include h in
theorem ending_update (name : String) :
    (update name draft user).ending m =
      match checkPlan (draft.stampChange user).toEntries with
      | .ok () =>
        match (m.portion name).plans.findIdx? Plan.active with
        | some place => .ok (some (some place))
        | none => .error (.domain (.noActivePlan name))
      | .error fault => .error (.domain (.invalidPlan fault)) := by
  unfold ending
  dsimp only
  rw [result_update, state_update]
  cases checkPlan (draft.stampChange user).toEntries with
  | ok _ =>
    have hfound := m.active?_portion name
    cases hactive : m.active? name with
    | some p =>
      obtain ⟨k, hk, hfirst⟩ := h.place?_active hactive
      rw [hfirst]
      exact congrArg (fun place => Except.ok (some place)) ((Memory.place?_replaceEntries name _ p.id).trans hk)
    | none =>
      rw [hactive] at hfound
      rw [List.findIdx?_eq_none_iff.mpr fun p hp => Bool.eq_false_iff.mpr (List.find?_eq_none.mp hfound.symm p hp)]
      rfl
  | error _ => rfl

end

theorem ending_congr {c : Change} (hm : m.Numbered) (hm' : m'.Numbered)
    (h : m.portion c.imageType = m'.portion c.imageType) : c.ending m = c.ending m' := by
  cases c with
  | addType name description => rfl
  | addVersion row =>
    unfold ending
    dsimp only
    rw [result_addVersion, result_addVersion]
    split <;> rfl
  | setState name version word =>
    have hportion : m.portion name = m'.portion name := h
    rw [ending_setState, ending_setState, hportion]
  | create draft user =>
    have hportion : m.portion draft.imageType.val = m'.portion draft.imageType.val := h
    rw [ending_create hm, ending_create hm', hportion]
  | update name draft user =>
    have hportion : m.portion name = m'.portion name := h
    rw [ending_update hm, ending_update hm', hportion]

/-- The plan that a change is about has a place among the plans of its type. -/
theorem placed (h : m.Numbered) (c : Change) : c.ending m ≠ .ok (some none) := by
  intro hending
  cases c with
  | addType name description => cases hending
  | addVersion row =>
    unfold ending at hending
    dsimp only at hending
    rw [result_addVersion] at hending
    split at hending <;> cases hending
  | setState name version word =>
    rw [ending_setState] at hending
    split at hending
    · cases hending
    · split at hending <;> cases hending
  | create draft user =>
    rw [ending_create h] at hending
    split at hending
    · split at hending <;> cases hending
    · cases hending
  | update name draft user =>
    rw [ending_update h] at hending
    split at hending
    · split at hending <;> cases hending
    · cases hending

end Change

/-! ### Runs -/

namespace Memory

variable {m m' : Memory} {imageType : String}

theorem Numbered.active_eq (h : m.Numbered) (imageType : String) :
    (m.active? imageType).map (fun p => (m.place? imageType p.id, p.plan.unnumbered)) =
      ((m.portion imageType).plans.find? Plan.active).map fun p =>
        ((m.portion imageType).plans.findIdx? Plan.active, p) := by
  rw [← active?_portion, Option.map_map]
  cases hactive : m.active? imageType with
  | none => rfl
  | some p =>
    obtain ⟨k, hk, hfirst⟩ := h.place?_active hactive
    simp [hk, hfirst]

theorem Numbered.latestActive_eq (h : m.Numbered) (imageType : String) :
    m.latestActive [imageType] =
      (((m.portion imageType).versions.filter fun v => v.2 = .active).getLast?.map
        fun v => ActiveVersion.mk imageType v.1).toList := by
  have hlast : ((m.portion imageType).versions.filter fun v => v.2 = .active).getLast? =
      ((m.versionsOf imageType).filter fun r => r.state = .active).getLast?.map fun r => (r.version, r.state) := by
    unfold portion
    rw [List.filter_map, List.getLast?_map]
    rfl
  unfold latestActive
  rw [Names.ordered_singleton, List.filterMap_cons, List.filterMap_nil, newestActive?_eq_getLast? h.ascending, hlast]
  cases ((m.versionsOf imageType).filter fun r => r.state = .active).getLast? <;> rfl

theorem Numbered.account_congr (hm : m.Numbered) (hm' : m'.Numbered)
    (h : m.portion imageType = m'.portion imageType) : m.account imageType = m'.account imageType := by
  have hregistration : m.types.lookup imageType = m'.types.lookup imageType := congrArg Portion.registration h
  have hplans : (m.plansOf imageType).map (fun p => p.plan.unnumbered) =
      (m'.plansOf imageType).map fun p => p.plan.unnumbered := congrArg Portion.plans h
  unfold account
  rw [hregistration, hplans, hm.active_eq, hm'.active_eq, hm.latestActive_eq, hm'.latestActive_eq, h]

theorem history_cons_of_eq (c : Change) (rest : List Change) (m : Memory) :
    history c.imageType (c :: rest) m =
      (c.ending m, (c.onMemory.run m).state.account c.imageType) ::
        history c.imageType rest (c.onMemory.run m).state :=
  if_pos rfl

theorem history_cons_of_ne {c : Change} (h : c.imageType ≠ imageType) (rest : List Change) (m : Memory) :
    history imageType (c :: rest) m = history imageType rest (c.onMemory.run m).state :=
  if_neg h

theorem placed_history (run : List Change) (hm : m.Numbered) :
    ∀ told ∈ history imageType run m, told.1 ≠ .ok (some none) := by
  induction run generalizing m with
  | nil =>
    intro told htold
    cases htold
  | cons c rest ih =>
    have hrest := ih (Change.numbered hm c)
    by_cases htype : c.imageType = imageType
    · subst htype
      rw [history_cons_of_eq]
      intro told htold
      rcases List.mem_cons.mp htold with rfl | htold
      · exact Change.placed hm c
      · exact hrest told htold
    · rw [history_cons_of_ne htype]
      exact hrest

/-- Between stores that agree on an image type, a run goes for this type as what it does to the type. -/
theorem history_filter (run : List Change) (hm : m.Numbered) (hm' : m'.Numbered)
    (h : m.portion imageType = m'.portion imageType) :
    history imageType run m = history imageType (run.filter fun c => c.imageType = imageType) m' := by
  induction run generalizing m m' with
  | nil => rfl
  | cons c rest ih =>
    by_cases htype : c.imageType = imageType
    · subst htype
      have hportion := c.isLocal.portion_congr h
      have hnumbered := Change.numbered hm c
      have hnumbered' := Change.numbered hm' c
      rw [List.filter_cons_of_pos (by simp), history_cons_of_eq, history_cons_of_eq, Change.ending_congr hm hm' h,
        hnumbered.account_congr hnumbered' hportion, ih hnumbered hnumbered' hportion]
    · rw [List.filter_cons_of_neg (by simpa using htype), history_cons_of_ne htype]
      exact ih (Change.numbered hm c) hm' ((c.isLocal.portion_of_ne htype m).trans h)

end Memory

theorem Memory.portion_after_filter (imageType : String) (run : List Change) :
    (after run).portion imageType = (after (run.filter fun c => c.imageType = imageType)).portion imageType := by
  induction run using List.reverseRecOn with
  | nil => rfl
  | append_singleton before c ih =>
    rw [List.filter_append, after_concat]
    by_cases htype : c.imageType = imageType
    · subst htype
      rw [List.filter_cons_of_pos (by simp), List.filter_nil, after_concat]
      exact c.isLocal.portion_congr ih
    · rw [List.filter_cons_of_neg (by simpa using htype), List.filter_nil, List.append_nil]
      exact (c.isLocal.portion_of_ne htype _).trans ih

/-- An image type has the same history and the same end whether the changes of other types are in the run
    or not, and its history tells every plan by a place. So changes of different types can trade places. -/
theorem types_are_isolated (imageType : String) :
    (∀ run : List Change,
      Memory.history imageType run {} = Memory.history imageType (run.filter fun c => c.imageType = imageType) {} ∧
        (∀ told ∈ Memory.history imageType run {}, told.1 ≠ .ok (some none)) ∧
        (Memory.after run).account imageType =
          (Memory.after (run.filter fun c => c.imageType = imageType)).account imageType) ∧
    ∀ (before rest : List Change) (c d : Change), c.imageType ≠ d.imageType →
      Memory.history imageType (before ++ c :: d :: rest) {} = Memory.history imageType (before ++ d :: c :: rest) {} ∧
        (Memory.after (before ++ c :: d :: rest)).account imageType =
          (Memory.after (before ++ d :: c :: rest)).account imageType := by
  have hapart : ∀ run : List Change,
      Memory.history imageType run {} = Memory.history imageType (run.filter fun c => c.imageType = imageType) {} ∧
        (Memory.after run).account imageType =
          (Memory.after (run.filter fun c => c.imageType = imageType)).account imageType := by
    intro run
    constructor
    · exact Memory.history_filter run .empty .empty rfl
    · exact (Memory.numbered_after _).account_congr (Memory.numbered_after _)
        (Memory.portion_after_filter imageType run)
  refine ⟨fun run => ⟨(hapart run).1, Memory.placed_history run .empty, (hapart run).2⟩, fun before rest c d hne => ?_⟩
  -- Of two changes of different types at most one is about the type.
  have hswap : (before ++ c :: d :: rest).filter (fun c => c.imageType = imageType) =
      (before ++ d :: c :: rest).filter fun c => c.imageType = imageType := by
    rw [List.filter_append, List.filter_append]
    by_cases hc : c.imageType = imageType
    · have hd : d.imageType ≠ imageType := fun hd => hne (hc.trans hd.symm)
      simp [hc, hd]
    · simp [List.filter_cons, hc]
  obtain ⟨hhistory, haccount⟩ := hapart (before ++ c :: d :: rest)
  obtain ⟨hhistory', haccount'⟩ := hapart (before ++ d :: c :: rest)
  rw [hswap] at hhistory haccount
  exact ⟨hhistory.trans hhistory'.symm, haccount.trans haccount'.symm⟩

theorem types_are_isolated_sample :
    (Change.create sampleDraft (some "alice")).imageType ≠ (Change.addType "flink" none).imageType ∧
      (Memory.history "spark" [.addType "spark" none, .create sampleDraft (some "alice"), .addType "flink" none,
          .update "spark" sampleDraft (some "bob")] {}).map Prod.fst =
        [.ok none, .ok (some (some 0)), .ok (some (some 0))] ∧
      Memory.history "spark" [.addType "spark" none, .create sampleDraft (some "alice"), .addType "flink" none,
          .update "spark" sampleDraft (some "bob")] {} =
        Memory.history "spark" [.addType "spark" none, .addType "flink" none, .create sampleDraft (some "alice"),
          .update "spark" sampleDraft (some "bob")] {} := by
  have hne : (Change.create sampleDraft (some "alice")).imageType ≠ (Change.addType "flink" none).imageType := by decide
  obtain ⟨-, hswap⟩ := types_are_isolated "spark"
  exact ⟨hne, by cbv, (hswap [.addType "spark" none] [.update "spark" sampleDraft (some "bob")] _ _ hne).1⟩

end ImageRollout
