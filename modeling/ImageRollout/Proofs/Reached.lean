import ImageRollout.Proofs.Authoring

/-! The states that a store reaches. From an empty store on, image types and versions are registered,
    versions change their states, and authors make and change plans, with and without success. In
    every state reached the plans are in order, so resolution never meets a corrupt plan. -/

namespace ImageRollout

open ImageRollout.Action

/-! ### Changes -/

/-- A change that a store is asked to make. -/
inductive Change where
  | addType (name : String) (description : Option String)
  | addVersion (row : VersionRow)
  | setState (imageType version state : String)
  | create (draft : PlanDraft) (user : Option String)
  | update (imageType : String) (draft : PlanDraft) (user : Option String)

/-- The change in a store in memory, with the plan that it is about. -/
def Change.onMemory : Change → Action Memory (Option PlanId)
  | addType name description => do
    Action.change (Memory.addType name description)
    pure none
  | addVersion row => do
    Memory.register row.imageType row.version row.state
    pure none
  | setState imageType version state => do
    Memory.changeState imageType version state
    pure none
  | create draft user => do
    let id ← Authoring.create Memory.writer draft user
    pure (some id)
  | update imageType draft user => do
    let id ← Authoring.update Memory.writer imageType draft user
    pure (some id)

/-- Puts rows into the tables from outside of any operation. -/
def Session.write (f : Tables → Tables) : Action Session Unit :=
  Action.change fun s => { s with committed := f s.committed, draft := f s.draft }

/-- The change in a database, with the plan that it is about. -/
def Change.onDatabase : Change → Action Session (Option PlanId)
  | addType name description => do
    Session.write (Tables.putType name description)
    pure none
  | addVersion row => do
    Session.write (Tables.putVersion row)
    pure none
  | setState imageType version state => do
    Session.write (Tables.setState imageType version state)
    pure none
  | create draft user => do
    let id ← Authoring.create Database.writer draft user
    pure (some id)
  | update imageType draft user => do
    let id ← Authoring.update Database.writer imageType draft user
    pure (some id)

/-- A store in memory that changes lead to. -/
inductive Memory.Reached : Memory → Prop where
  | empty : Reached {}
  | change {m : Memory} (c : Change) (h : Reached m) : Reached (c.onMemory.run m).state

/-- The store in memory after a run of changes, from an empty store on. -/
def Memory.after (run : List Change) : Memory :=
  run.foldl (fun m c => (c.onMemory.run m).state) {}

/-- A session with a database that changes lead to, in one session or in several, whatever engine it has and
    whatever statement of a session it refuses. -/
inductive Database.Reached : Session → Prop where
  | empty (engine : Engine) (fault : Option Fault) : Reached (.start { engine } fault)
  | change {s : Session} (c : Change) (h : Reached s) : Reached (c.onDatabase.run s).state
  | reopen {s : Session} (fault : Option Fault) (h : Reached s) : Reached (.start s.committed fault)

/-! ### What a change comes to in memory -/

namespace Change

variable (row : VersionRow) (imageType version word : String) (draft : PlanDraft) (user : Option String) (m : Memory)

theorem result_addVersion :
    ((addVersion row).onMemory.run m).result =
      match VersionState.ofName? row.state with
      | some _ => .ok none
      | none => .error (.misuse (.unknownState row.state)) := by
  unfold onMemory
  rw [result_bind (g := fun _ => none) fun _ _ => rfl, Memory.result_register]
  cases VersionState.ofName? row.state <;> rfl

theorem state_addVersion :
    ((addVersion row).onMemory.run m).state =
      match VersionState.ofName? row.state with
      | some state => (m.ensureType row.imageType).addVersion row.imageType row.version state
      | none => m.ensureType row.imageType := by
  unfold onMemory
  rw [state_bind fun _ _ => rfl]
  exact Memory.state_register row.imageType row.version row.state m

theorem result_setState :
    ((setState imageType version word).onMemory.run m).result =
      match VersionState.ofName? word with
      | some _ => .ok none
      | none =>
        if m.versions.any fun r => r.imageType = imageType ∧ r.version = version then
          .error (.misuse (.unknownState word))
        else .ok none := by
  unfold onMemory
  rw [result_bind (g := fun _ => none) fun _ _ => rfl, Memory.result_changeState]
  cases VersionState.ofName? word with
  | some _ => rfl
  | none => exact apply_ite (Except.map fun _ => none) _ _ _

theorem state_setState :
    ((setState imageType version word).onMemory.run m).state =
      match VersionState.ofName? word with
      | some state => m.setState imageType version state
      | none => m := by
  unfold onMemory
  rw [state_bind fun _ _ => rfl]
  exact Memory.state_changeState imageType version word m

theorem result_create :
    ((create draft user).onMemory.run m).result =
      match checkPlan (draft.stampNew user).toEntries with
      | .ok () =>
        if m.isRegistered draft.imageType.val then .ok (some (.made m.plans.length))
        else .error (.domain (.unknownImageType draft.imageType.val))
      | .error fault => .error (.domain (.invalidPlan fault)) := by
  unfold onMemory
  rw [result_bind (g := some) fun _ _ => rfl, Authoring.result_create]
  cases checkPlan (draft.stampNew user).toEntries with
  | ok _ =>
    refine (congrArg (Except.map some) (Memory.result_createPlan _ m)).trans ?_
    exact apply_ite (Except.map some) _ _ _
  | error _ => rfl

theorem state_create :
    ((create draft user).onMemory.run m).state =
      match checkPlan (draft.stampNew user).toEntries with
      | .ok () =>
        if m.isRegistered draft.imageType.val then m.withPlan (draft.stampNew user).toNewPlan else m
      | .error _ => m := by
  unfold onMemory
  rw [state_bind fun _ _ => rfl, Authoring.state_create]
  cases checkPlan (draft.stampNew user).toEntries with
  | ok _ => exact Memory.state_createPlan _ m
  | error _ => rfl

theorem result_update :
    ((update imageType draft user).onMemory.run m).result =
      match checkPlan (draft.stampChange user).toEntries with
      | .ok () =>
        match m.active? imageType with
        | some p => .ok (some p.id)
        | none => .error (.domain (.noActivePlan imageType))
      | .error fault => .error (.domain (.invalidPlan fault)) := by
  unfold onMemory
  rw [result_bind (g := some) fun _ _ => rfl, Authoring.result_update]
  cases checkPlan (draft.stampChange user).toEntries with
  | ok _ =>
    refine (congrArg (Except.map some) (Memory.result_updatePlan imageType _ m)).trans ?_
    cases m.active? imageType <;> rfl
  | error _ => rfl

theorem state_update :
    ((update imageType draft user).onMemory.run m).state =
      match checkPlan (draft.stampChange user).toEntries with
      | .ok () => m.replaceEntries imageType (draft.stampChange user).toEntries
      | .error _ => m := by
  unfold onMemory
  rw [state_bind fun _ _ => rfl, Authoring.state_update]
  cases checkPlan (draft.stampChange user).toEntries with
  | ok _ => exact Memory.state_updatePlan imageType _ m
  | error _ => rfl

end Change

/-! ### What a change keeps -/

theorem Change.ends_onMemory {m : Memory} (h : m.Sound) (c : Change) :
    Ends c.onMemory m (fun _ => True) (fun _ m' => m'.Sound) fun _ m' => m'.Sound := by
  cases c with
  | addType name description =>
    refine .change_bind (.pure (h.of_plans_eq ?_ fun imageType htype => ?_))
    · unfold Memory.addType
      split <;> rfl
    · exact (Memory.isRegistered_addType name description m imageType).mpr (Or.inr htype)
  | addVersion row =>
    have hensure : (m.ensureType row.imageType).Sound := by
      refine h.of_plans_eq ?_ fun imageType htype => ?_
      · unfold Memory.ensureType
        split <;> rfl
      · exact (Memory.isRegistered_ensureType row.imageType m imageType).mpr (Or.inr htype)
    refine Ends.bind (fun _ m' => m'.Sound) (.change_bind ?_) fun _ _ hm => .pure hm
    split
    · exact .change (hensure.of_plans_eq rfl fun _ => id)
    · exact .fail hensure
  | setState imageType version state =>
    refine Ends.bind (fun _ m' => m'.Sound) (.read_bind ?_) fun _ _ hm => .pure hm
    split
    · exact .change (h.of_plans_eq rfl fun _ => id)
    · split
      · exact .fail h
      · exact .pure h
  | create draft user =>
    refine Ends.bind (fun _ m' => m'.Sound) ((Memory.ends_create draft user m).mono (fun _ he => he) ?_ ?_)
      fun _ _ hm => .pure hm
    · rintro _ m' ⟨hcheck, htype, rfl⟩
      exact h.withPlan ((draft.sameTerms_stampNew user).symm.checkPlan_eq_ok hcheck) htype
    · rintro _ m' rfl
      exact h
  | update imageType draft user =>
    refine Ends.bind (fun _ m' => m'.Sound) ((Memory.ends_update imageType draft user m).mono (fun _ he => he) ?_ ?_)
      fun _ _ hm => .pure hm
    · rintro _ m' ⟨hcheck, -, -, rfl⟩
      exact h.replaceEntries imageType ((draft.sameTerms_stampChange user).symm.checkPlan_eq_ok hcheck)
    · rintro _ m' rfl
      exact h

theorem Change.numbered {m : Memory} (h : m.Numbered) (c : Change) : (c.onMemory.run m).state.Numbered := by
  cases c with
  | addType name description => exact h.of_eq (m.versions_addType name description) (m.plans_addType name description)
  | addVersion row =>
    have hensure := h.of_eq (m.versions_ensureType row.imageType) (m.plans_ensureType row.imageType)
    rw [state_addVersion]
    split
    · exact hensure.addVersion _ _ _
    · exact hensure
  | setState imageType version word =>
    rw [state_setState]
    split
    · exact h.setState _ _ _
    · exact h
  | create draft user =>
    rw [state_create]
    split
    · split
      · exact h.withPlan _
      · exact h
    · exact h
  | update imageType draft user =>
    rw [state_update]
    split
    · exact h.replaceEntries _ _
    · exact h

/-- A session between two operations over sound tables. -/
def Session.Sound (s : Session) : Prop :=
  ∃ t : Tables, t.Sound ∧ s.Rests t

theorem Session.Rests.write {s : Session} {t : Tables} (h : s.Rests t) {f : Tables → Tables} (hsound : (f t).Sound) :
    Session.Sound { s with committed := f s.committed, draft := f s.draft } :=
  ⟨f t, hsound, congrArg f h.committed, congrArg f h.draft⟩

theorem Change.ends_onDatabase {s : Session} (h : s.Sound) (c : Change) :
    Ends c.onDatabase s (fun _ => True) (fun _ s' => s'.Sound) fun _ s' => s'.Sound := by
  obtain ⟨t, ht, hs⟩ := h
  cases c with
  | addType name description =>
    refine .change_bind (.pure (hs.write (ht.of_plans_eq ?_ ?_ fun imageType htype => ?_)))
    · unfold Tables.putType
      split <;> rfl
    · unfold Tables.putType
      split <;> rfl
    · exact (Tables.isSome_type?_putType name description t imageType).mpr (Or.inr htype)
  | addVersion row =>
    refine .change_bind (.pure (hs.write (ht.of_plans_eq ?_ ?_ fun imageType htype => ?_)))
    · unfold Tables.putVersion Tables.ensureType
      dsimp only
      split <;> rfl
    · unfold Tables.putVersion Tables.ensureType
      dsimp only
      split <;> rfl
    · exact (Tables.isSome_type?_ensureType row.imageType t imageType).mpr (Or.inr htype)
  | setState imageType version state =>
    exact .change_bind (.pure (hs.write (ht.of_plans_eq rfl rfl fun _ => id)))
  | create draft user =>
    have hnew : ∀ s' : Session, checkPlan draft.toEntries = .ok () → (t.type? draft.imageType.val).isSome →
        s'.Rests (t.withPlan (draft.stampNew user).toNewPlan) → s'.Sound := fun s' hcheck htype hs' =>
      ⟨_, ht.withPlan ((draft.sameTerms_stampNew user).symm.checkPlan_eq_ok hcheck) htype, hs'⟩
    refine Ends.bind (fun _ s' => s'.Sound) ((Database.ends_create hs draft user).mono (fun _ he => he) ?_ ?_)
      fun _ _ hm => .pure hm
    · rintro _ s' ⟨hcheck, htype, hs'⟩
      exact hnew s' hcheck htype hs'
    · rintro _ s' (⟨-, hs'⟩ | ⟨hcheck, -, htype, hs'⟩)
      · exact ⟨t, ht, hs'⟩
      · exact hnew s' hcheck htype hs'
  | update imageType draft user =>
    refine Ends.bind (fun _ s' => s'.Sound) ((Database.ends_update hs imageType draft user).mono (fun _ he => he) ?_
      fun _ _ hf => ⟨t, ht, hf⟩) fun _ _ hm => .pure hm
    rintro _ s' ⟨hcheck, row, hrow, hs'⟩
    have hmem := Tables.mem_activePlans.mp (List.mem_of_mem_head? hrow)
    have hentries := (draft.sameTerms_stampChange user).symm.checkPlan_eq_ok hcheck
    exact ⟨_, ht.replaceShares (ht.keyed.number_lt hmem.1) hentries user, hs'⟩

/-! ### Every state reached -/

theorem Memory.after_concat (run : List Change) (c : Change) :
    after (run ++ [c]) = (c.onMemory.run (after run)).state := by
  unfold after
  rw [List.foldl_append]
  rfl

theorem Memory.numbered_after (run : List Change) : (Memory.after run).Numbered := by
  induction run using List.reverseRecOn with
  | nil => exact .empty
  | append_singleton before c ih =>
    rw [after_concat]
    exact Change.numbered ih c

theorem Memory.Reached.sound {m : Memory} (h : Reached m) : m.Sound := by
  -- A change keeps the store sound whether it succeeds or fails.
  induction h with
  | empty => exact .empty
  | change c _ ih => exact (c.ends_onMemory ih).state

theorem Database.Reached.sound {s : Session} (h : Reached s) : s.Sound := by
  induction h with
  | empty engine fault => exact ⟨{ engine }, .empty engine, Session.rests_start _ fault⟩
  | change c _ ih => exact (c.ends_onDatabase ih).state
  | reopen fault _ ih =>
    obtain ⟨t, ht, hs⟩ := ih
    exact ⟨t, ht, hs.committed, hs.committed⟩

/-- Over the store no batch tells of a corrupt plan, whatever is asked for and under which rules, as long
    as the strategy stays in range. -/
def Untroubled {σ : Type} (source : Source σ) (s : σ) : Prop :=
  ∀ (rules : Rules) (imageTypes : List String) (strategy : Strategy) (b : Backing σ),
    b.store = s → strategy.InRange b.generator →
      (∀ e ∈ ((resolveAll source rules imageTypes (some strategy)).run b).events, e.Sound) ∧
        ∀ f, ((resolveAll source rules imageTypes (some strategy)).run b).result = .error f → f.Sound

theorem Source.Sound.untroubled {σ : Type} {source : Source σ} {s : σ} (h : source.Sound s) : Untroubled source s := by
  rintro rules imageTypes strategy b rfl hrange
  have hends := ends_resolveAll h hrange rules imageTypes
  exact ⟨hends.events, hends.failure⟩

/-- In every state that a store reaches its plans are in order, its reads tell the active ones, and no
    batch over it meets a corrupt plan. In memory every plan is kept under the image type that it names. -/
theorem reached_in_order :
    (∀ m, Memory.Reached m → m.Filed ∧
      InOrder (fun imageType => m.isRegistered imageType) (m.plans.map StoredPlan.plan) ∧
      Reads Memory.writer Memory.source m (m.plans.map StoredPlan.plan) ∧ Untroubled Memory.source m) ∧
    ∀ s, Database.Reached s → s.draft = s.committed ∧ ∃ plans, s.committed.plans.mapM s.committed.plan = .ok plans ∧
      InOrder (fun imageType => (s.committed.type? imageType).isSome) plans ∧
      (s.refusal? .execute (s.executed + 1) = none → Reads Database.writer Database.source s plans) ∧
      Untroubled Database.source s := by
  refine ⟨fun m hm => ?_, fun s hs => ?_⟩
  · have hsound := hm.sound
    exact ⟨hsound.filed, hsound.inOrder, hsound.filed.reads, hsound.source_sound.untroubled⟩
  · obtain ⟨t, ht, hcommitted, hdraft⟩ := hs.sound
    have hsame : s.draft = s.committed := hdraft.trans hcommitted.symm
    subst hcommitted
    refine ⟨hsame, s.committed.plans.map s.committed.planOf, mapM_eq_ok fun row hrow => ht.plan_eq hrow, ht.inOrder,
      fun hfree => ?_, ?_⟩
    · have hreads := Database.reads (hdraft.symm ▸ ht) hfree
      rw [hsame] at hreads
      exact hreads
    · exact (Database.source_sound (hdraft.symm ▸ ht)).untroubled

/-- A draft for the entries of the sample plan. -/
def sampleDraft : PlanDraft where
  imageType := ⟨"spark", by decide⟩
  entries := samplePlan.entries.map fun e =>
    { imageVersion := e.version, share := e.share, stability := e.stability }

def sampleMemory : Memory :=
  ((Change.create sampleDraft (some "alice")).onMemory.run ((Change.addType "spark" none).onMemory.run {}).state).state

theorem reached_sampleMemory : Memory.Reached sampleMemory :=
  (Memory.Reached.empty.change _).change _

def sampleSession : Session :=
  ((Change.create sampleDraft (some "alice")).onDatabase.run
    ((Change.addType "spark" none).onDatabase.run (.start {} none)).state).state

theorem reached_sampleSession : Database.Reached sampleSession :=
  ((Database.Reached.empty .small none).change _).change _

theorem reached_in_order_sample :
    (sampleMemory.plans.length = 1 ∧
      Reads Memory.writer Memory.source sampleMemory (sampleMemory.plans.map StoredPlan.plan)) ∧
    sampleSession.committed.plans.length = 1 ∧ ∃ plans,
      sampleSession.committed.plans.mapM sampleSession.committed.plan = .ok plans ∧
        Reads Database.writer Database.source sampleSession plans := by
  obtain ⟨hmemory, hdatabase⟩ := reached_in_order
  obtain ⟨-, -, hreads, -⟩ := hmemory sampleMemory reached_sampleMemory
  obtain ⟨-, plans, hplans, -, hfetched, -⟩ := hdatabase sampleSession reached_sampleSession
  exact ⟨⟨by decide_cbv, hreads⟩, by decide_cbv, plans, hplans, hfetched (by decide_cbv)⟩

end ImageRollout
