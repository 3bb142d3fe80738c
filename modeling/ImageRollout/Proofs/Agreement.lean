import ImageRollout.Proofs.Reached
import ImageRollout.Proofs.Store.Alike

/-! The two stores agree. A run of changes is made in memory and in a database, side by side. Each change
    ends alike in both, and after each of them both tell the same plans, versions and image types. -/

namespace ImageRollout

open ImageRollout.Action

/-! ### Runs side by side -/

/-- A run of changes in a database with an engine, in one session or in several, of which no statement is
    refused. -/
inductive Database.Follows (engine : Engine) : List Change → Session → Prop where
  | empty : Follows engine [] (.start { engine } none)
  | change {run : List Change} {s : Session} (c : Change) (h : Follows engine run s) :
      Follows engine (run ++ [c]) (c.onDatabase.run s).state
  | reopen {run : List Change} {s : Session} (h : Follows engine run s) :
      Follows engine run (.start s.committed none)

/-- The run in one session. -/
def Database.after (engine : Engine) (run : List Change) : Session :=
  run.foldl (fun s c => (c.onDatabase.run s).state) (.start { engine } none)

theorem Database.follows_after (engine : Engine) (run : List Change) : Follows engine run (after engine run) := by
  induction run using List.reverseRecOn with
  | nil => exact .empty
  | append_singleton before c ih =>
    unfold after at ih ⊢
    rw [List.foldl_append]
    exact ih.change c

/-- A change that gives versions only such states as there are. -/
def Change.Stated : Change → Prop
  | addVersion row => ∃ state : VersionState, state.name = row.state
  | setState _ _ word => ∃ state : VersionState, state.name = word
  | _ => True

/-- When the version was made that a change registers. -/
def Change.madeAt? : Change → Option Int
  | addVersion row => some row.createdAt
  | _ => none

/-- A run that registers versions in the order they are made, and in states that there are. -/
structure Orderly (run : List Change) : Prop where
  stated : ∀ c ∈ run, c.Stated
  times : (run.filterMap Change.madeAt?).Pairwise (· < ·)

theorem Orderly.before {run : List Change} {c : Change} (h : Orderly (run ++ [c])) : Orderly run := by
  obtain ⟨hstated, htimes⟩ := h
  refine ⟨fun d hd => hstated d (List.mem_append_left _ hd), ?_⟩
  rw [List.filterMap_append] at htimes
  exact (List.pairwise_append.mp htimes).1

/-- What both stores tell, whatever they are asked for. Plans come with the numbers that say which of
    them was made when; the names of the users who made their entries may differ. -/
structure SameAnswers (m : Memory) (s : Session) : Prop where
  one : ∀ imageType, ∃ p q : Option Plan,
    ((Memory.writer.activePlan? imageType).run m).result = .ok p ∧
      ((Database.writer.activePlan? imageType).run s).result = .ok q ∧ p.map Plan.unsigned = q.map Plan.unsigned
  many : ∀ imageTypes, ∃ a b : PlanAnswer,
    ((Memory.source.activePlans imageTypes).run m).result = .ok (.answered a) ∧
      ((Database.source.activePlans imageTypes).run s).result = .ok (.answered b) ∧
      ∀ imageType, (a.lookup imageType).map (Option.map Plan.unsigned) =
        (b.lookup imageType).map (Option.map Plan.unsigned)
  latest : ∀ imageTypes, ∃ rows,
    ((Memory.source.latestActive imageTypes).run m).result = .ok (.answered rows) ∧
      ((Database.source.latestActive imageTypes).run s).result = .ok (.answered rows)
  names : ∃ names,
    (Memory.source.typeNames?.map fun a => (a.run m).result) = some (.ok (.answered names)) ∧
      (Database.source.typeNames?.map fun a => (a.run s).result) = some (.ok (.answered names))

/-! ### One change in a database -/

theorem Session.Calm.write {s : Session} {t : Tables} (h : s.Calm t) (f : Tables → Tables) :
    Session.Calm { s with committed := f s.committed, draft := f s.draft } (f t) :=
  ⟨⟨congrArg f h.committed, congrArg f h.draft⟩, h.fault⟩

namespace Change

variable {s : Session} {t : Tables} (h : s.Calm t) (htakes : t.engine.TakesAll)
  (imageType : String) (draft : PlanDraft) (user : Option String)

include h htakes

theorem result_create_onDatabase :
    ((create draft user).onDatabase.run s).result =
      match checkPlan (draft.stampNew user).toEntries with
      | .ok () =>
        if (t.type? draft.imageType.val).isSome then .ok (some (.made t.plans.length))
        else .error (.domain (.unknownImageType draft.imageType.val))
      | .error fault => .error (.domain (.invalidPlan fault)) := by
  unfold onDatabase
  rw [result_bind (g := some) fun _ _ => rfl, Authoring.result_create]
  cases checkPlan (draft.stampNew user).toEntries with
  | ok _ =>
    refine (congrArg (Except.map some) (Database.result_createPlan _ h htakes)).trans ?_
    exact apply_ite (Except.map some) _ _ _
  | error _ => rfl

theorem calm_create :
    ((create draft user).onDatabase.run s).state.Calm
      (match checkPlan (draft.stampNew user).toEntries with
      | .ok () =>
        if (t.type? draft.imageType.val).isSome then t.withPlan (draft.stampNew user).toNewPlan else t
      | .error _ => t) := by
  unfold onDatabase
  rw [state_bind fun _ _ => rfl, Authoring.state_create]
  cases checkPlan (draft.stampNew user).toEntries with
  | ok _ => exact Database.calm_createPlan _ h htakes
  | error _ => exact h

theorem result_update_onDatabase :
    ((update imageType draft user).onDatabase.run s).result =
      match checkPlan (draft.stampChange user).toEntries with
      | .ok () =>
        match (t.activePlans [imageType]).head? with
        | some row => .ok (some row.id)
        | none => .error (.domain (.noActivePlan imageType))
      | .error fault => .error (.domain (.invalidPlan fault)) := by
  unfold onDatabase
  rw [result_bind (g := some) fun _ _ => rfl, Authoring.result_update]
  cases checkPlan (draft.stampChange user).toEntries with
  | ok _ =>
    refine (congrArg (Except.map some) (Database.result_updatePlan imageType _ user h htakes)).trans ?_
    cases (t.activePlans [imageType]).head? <;> rfl
  | error _ => rfl

theorem calm_update :
    ((update imageType draft user).onDatabase.run s).state.Calm
      (match checkPlan (draft.stampChange user).toEntries with
      | .ok () =>
        match (t.activePlans [imageType]).head? with
        | some row => t.replaceShares row.number (draft.stampChange user).toEntries user
        | none => t
      | .error _ => t) := by
  unfold onDatabase
  rw [state_bind fun _ _ => rfl, Authoring.state_update]
  cases checkPlan (draft.stampChange user).toEntries with
  | ok _ => exact Database.calm_updatePlan imageType _ user h htakes
  | error _ => exact h

end Change

/-! ### One change in both -/

theorem VersionState.ofName?_name (state : VersionState) : VersionState.ofName? state.name = some state := by
  cases state <;> decide

namespace Change

variable {m : Memory} {s : Session} {t : Tables}

theorem result_eq (h : Alike m t) (ht : t.Sound) (hs : s.Calm t) (htakes : t.engine.TakesAll) {c : Change} (hc : c.Stated) :
    (c.onMemory.run m).result = (c.onDatabase.run s).result := by
  cases c with
  | addType name description => rfl
  | addVersion row =>
    obtain ⟨state, hstate⟩ := hc
    rw [result_addVersion, ← hstate, VersionState.ofName?_name]
    rfl
  | setState imageType version word =>
    obtain ⟨state, rfl⟩ := hc
    rw [result_setState, VersionState.ofName?_name]
    rfl
  | create draft user =>
    have hmemory := result_create draft user m
    rw [h.isRegistered_eq, h.length_plans] at hmemory
    refine hmemory.trans (Eq.trans ?_ (result_create_onDatabase hs htakes draft user).symm)
    cases checkPlan (draft.stampNew user).toEntries <;> rfl
  | update imageType draft user =>
    have hactive := h.active ht imageType
    rw [result_update, result_update_onDatabase hs htakes]
    cases checkPlan (draft.stampChange user).toEntries with
    | ok _ =>
      cases hp : m.active? imageType with
      | none =>
        rw [hp] at hactive
        rw [Option.map_eq_none_iff.mp hactive.symm]
      | some p =>
        rw [hp] at hactive
        obtain ⟨row, hrow, hsame⟩ := Option.map_eq_some_iff.mp hactive.symm
        have hid : some row.id = some p.id := congrArg Plan.id hsame
        rw [hrow]
        exact congrArg Except.ok hid.symm
    | error _ => rfl

/-- The tables after a change: they are like the memory that the change was made in, and they have the
    version that it registered. -/
theorem alike (h : Alike m t) (ht : t.Sound) (hs : s.Calm t) (htakes : t.engine.TakesAll) {c : Change} (hc : c.Stated) :
    ∃ t', (c.onDatabase.run s).state.Calm t' ∧ Alike (c.onMemory.run m).state t' ∧ t'.engine = t.engine ∧
      t'.versions.map VersionRow.createdAt = t.versions.map VersionRow.createdAt ++ c.madeAt?.toList := by
  cases c with
  | addType name description =>
    refine ⟨_, hs.write (Tables.putType name description), h.addType name description, ?_⟩
    rw [Tables.putType_eq]
    exact ⟨rfl, (List.append_nil _).symm⟩
  | addVersion row =>
    obtain ⟨state, hstate⟩ := hc
    rw [state_addVersion, ← hstate, VersionState.ofName?_name]
    refine ⟨_, hs.write (Tables.putVersion row), h.putVersion hstate, ?_⟩
    unfold Tables.putVersion
    rw [Tables.ensureType_eq]
    exact ⟨rfl, List.map_append⟩
  | setState imageType version word =>
    obtain ⟨state, rfl⟩ := hc
    rw [state_setState, VersionState.ofName?_name]
    refine ⟨_, hs.write (Tables.setState imageType version state.name), h.setState imageType version state, ?_⟩
    exact ⟨rfl, (Tables.times_setState imageType version state.name t).trans (List.append_nil _).symm⟩
  | create draft user =>
    refine ⟨_, calm_create hs htakes draft user, ?_⟩
    rw [state_create, h.isRegistered_eq]
    cases checkPlan (draft.stampNew user).toEntries with
    | ok _ =>
      dsimp only
      split
      · refine ⟨h.withPlan ht (draft.stampNew user).toNewPlan, Tables.engine_withPlan t _, ?_⟩
        rw [Tables.versions_withPlan]
        exact (List.append_nil _).symm
      · exact ⟨h, rfl, (List.append_nil _).symm⟩
    | error _ => exact ⟨h, rfl, (List.append_nil _).symm⟩
  | update imageType draft user =>
    have hactive := h.active ht imageType
    refine ⟨_, calm_update hs htakes imageType draft user, ?_⟩
    rw [state_update]
    cases checkPlan (draft.stampChange user).toEntries with
    | ok _ =>
      cases hrow : (t.activePlans [imageType]).head? with
      | some row => exact ⟨h.replaceEntries ht hrow _ user, rfl, (List.append_nil _).symm⟩
      | none =>
        -- Neither store has an active plan, and in memory there is nothing to replace.
        rw [hrow] at hactive
        dsimp only
        rw [Memory.replaceEntries_of_inactive (Option.map_eq_none_iff.mp hactive)]
        exact ⟨h, rfl, (List.append_nil _).symm⟩
    | error _ => exact ⟨h, rfl, (List.append_nil _).symm⟩

end Change

/-! ### Runs -/

section

variable {engine : Engine} {run : List Change} {s : Session} {t : Tables}

/-- Where a run leads in a database, beside what it leads to in memory. -/
structure Parallel (engine : Engine) (run : List Change) (s : Session) (t : Tables) : Prop where
  calm : s.Calm t
  engine : t.engine = engine
  sound : t.Sound
  alike : Alike (Memory.after run) t
  times : t.versions.map VersionRow.createdAt = run.filterMap Change.madeAt?

theorem Parallel.change (h : Parallel engine run s t) (htakes : engine.TakesAll) {c : Change} (hc : c.Stated) :
    ∃ t', Parallel engine (run ++ [c]) (c.onDatabase.run s).state t' := by
  obtain ⟨t', hcalm, halike, hengine, htimes⟩ := Change.alike h.alike h.sound h.calm (h.engine ▸ htakes) hc
  obtain ⟨t'', hsound, hrests⟩ := (c.ends_onDatabase ⟨t, h.sound, h.calm.toRests⟩).state
  obtain rfl : t'' = t' := hrests.committed.symm.trans hcalm.committed
  refine ⟨t'', hcalm, hengine.trans h.engine, hsound, ?_, ?_⟩
  · rw [Memory.after_concat]
    exact halike
  · have hlast : [c].filterMap Change.madeAt? = c.madeAt?.toList := by
      cases hmade : c.madeAt? <;> simp [hmade]
    rw [htimes, h.times, List.filterMap_append, hlast]

theorem Database.Follows.parallel (hs : Follows engine run s) (htakes : engine.TakesAll) (h : Orderly run) :
    ∃ t, Parallel engine run s t := by
  induction hs with
  | empty => exact ⟨{ engine }, ⟨⟨rfl, rfl⟩, rfl⟩, rfl, .empty engine, .empty engine, rfl⟩
  | change c _ ih =>
    obtain ⟨t, ht⟩ := ih h.before
    exact ht.change htakes (h.stated c (List.mem_append_right _ (List.mem_singleton_self c)))
  | reopen _ ih =>
    obtain ⟨t, ht⟩ := ih h
    exact ⟨t, ⟨⟨ht.calm.committed, ht.calm.committed⟩, rfl⟩, ht.engine, ht.sound, ht.alike, ht.times⟩

theorem Parallel.sameAnswers (h : Parallel engine run s t) (hnames : engine.ByCodePoint) (horder : Orderly run) :
    SameAnswers (Memory.after run) s := by
  have hdates : t.versions.Pairwise fun a b => a.createdAt < b.createdAt := by
    rw [← List.pairwise_map (f := VersionRow.createdAt), h.times]
    exact horder.times
  obtain rfl : s.draft = t := h.calm.draft
  have hmemory := h.alike.filed.reads
  have hdatabase := Database.reads h.sound (Session.refusal?_of_fault h.calm.fault .execute (s.executed + 1))
  have hactive : ∀ imageType,
      (activeIn ((Memory.after run).plans.map StoredPlan.plan) imageType).map Plan.unsigned =
        (activeIn (s.draft.plans.map s.draft.planOf) imageType).map Plan.unsigned := by
    intro imageType
    rw [← activeIn_map_unsigned, ← activeIn_map_unsigned, ← Memory.unsignedPlans_eq, ← Tables.unsignedPlans_eq,
      h.alike.plans]
  constructor
  · exact fun imageType => ⟨_, _, hmemory.one imageType, hdatabase.one imageType, hactive imageType⟩
  · intro imageTypes
    obtain ⟨a, ha, hofA⟩ := hmemory.many imageTypes
    obtain ⟨b, hb, hofB⟩ := hdatabase.many imageTypes
    refine ⟨a, b, ha, hb, fun imageType => ?_⟩
    rw [hofA imageType, hofB imageType]
    split
    · have hsome := congrArg (Option.map some) (hactive imageType)
      rw [Option.map_map, Option.map_map] at hsome ⊢
      exact hsome
    · rfl
  · intro imageTypes
    refine ⟨some ((Memory.after run).latestActive imageTypes), rfl, ?_⟩
    show ((Database.latestActive imageTypes >>= fun rows => pure (Reply.answered (some rows))).run s).result = _
    rw [result_bind (g := fun rows => .answered (some rows)) fun _ _ => rfl,
      Database.result_latestActive h.calm.fault, h.alike.latestActive_eq (Memory.numbered_after run) hdates]
    rfl
  · refine ⟨(Memory.after run).typeNames, rfl, congrArg some ?_⟩
    show ((Database.typeNames >>= fun names => pure (Reply.answered names)).run s).result = _
    rw [result_bind (g := fun names => .answered names) fun _ _ => rfl, Database.result_typeNames h.calm.fault,
      h.alike.typeNames_eq (h.engine.symm ▸ hnames)]
    rfl

/-- The same run in memory and in a database leads to stores that answer alike, and any next change ends
    alike in both: in the same failure, or with the same plan by its number. That takes a database whose
    columns have room for any text and which orders names as memory does; in what order it finds plans does
    not matter. -/
theorem stores_agree (htakes : engine.TakesAll) (hnames : engine.ByCodePoint) (h : Orderly run)
    (hs : Database.Follows engine run s) :
    SameAnswers (Memory.after run) s ∧ ∀ c, Orderly (run ++ [c]) →
      (c.onMemory.run (Memory.after run)).result = (c.onDatabase.run s).result := by
  obtain ⟨t, ht⟩ := hs.parallel htakes h
  refine ⟨ht.sameAnswers hnames h, fun c hc => ?_⟩
  have hstated : c.Stated := hc.stated c (List.mem_append_right _ (List.mem_singleton_self c))
  exact Change.result_eq ht.alike ht.sound ht.calm (ht.engine ▸ htakes) hstated

end

theorem Engine.takesAll_small : Engine.small.TakesAll :=
  fun _ _ => rfl

theorem Engine.byCodePoint_small : Engine.small.ByCodePoint :=
  Names.pairwise_mergeSort

def sampleRun : List Change :=
  [.addType "spark" none, .addVersion ⟨7, "spark", "1.0", "new", 10⟩, .addVersion ⟨4, "spark", "2.0", "active", 20⟩,
    .setState "spark" "1.0" "active", .create sampleDraft (some "alice")]

theorem orderly_sampleRun : Orderly sampleRun where
  stated c hc := by
    simp only [sampleRun, List.mem_cons, List.not_mem_nil, or_false] at hc
    rcases hc with rfl | rfl | rfl | rfl | rfl
    · trivial
    · exact ⟨.new, rfl⟩
    · exact ⟨.active, rfl⟩
    · exact ⟨.active, rfl⟩
    · trivial
  times := by decide

theorem stores_agree_sample :
    SameAnswers (Memory.after sampleRun) (.start (Database.after .small sampleRun).committed none) ∧
      ((Memory.source.latestActive ["spark"]).run (Memory.after sampleRun)).result =
        .ok (.answered (some [⟨"spark", "2.0"⟩])) ∧
      ((Change.update "spark" sampleDraft none).onMemory.run (Memory.after sampleRun)).result =
        ((Change.update "spark" sampleDraft none).onDatabase.run
          (.start (Database.after .small sampleRun).committed none)).result := by
  obtain ⟨hanswers, hnext⟩ := stores_agree Engine.takesAll_small Engine.byCodePoint_small orderly_sampleRun
    (Database.follows_after .small sampleRun).reopen
  refine ⟨hanswers, by cbv, hnext _ ⟨fun c hc => ?_, by decide⟩⟩
  rcases List.mem_append.mp hc with hc | hc
  · exact orderly_sampleRun.stated c hc
  · obtain rfl := List.mem_singleton.mp hc
    trivial

end ImageRollout
