import ImageRollout.Proofs.Store.Session
import ImageRollout.Proofs.Store.Tables
import ImageRollout.Store.Database

/-! The store in a database. An operation starts and ends with a draft that is the tables. Where it
    succeeds the tables have changed as a whole; where it fails they are as they were, whichever
    statement it failed at up to the commit. A plan that is only refused when it is read again is stored. -/

namespace ImageRollout.Database

open ImageRollout.Action Session

/-! ### Writing plans -/

/-- How an operation fails that leaves the tables alone: at a statement, or for a reason of its own. -/
def FailsWith (t : Tables) (reason : Failure → Prop) (f : Failure) (s : Session) : Prop :=
  (f.IsRefusal ∨ reason f) ∧ s.Rests t

/-- How a plan fails that is stored: the database refuses to give it again. -/
def FailsStored (t : Tables) (plan : NewPlan) (f : Failure) (s : Session) : Prop :=
  f.IsUnread ∧ (t.type? plan.imageType).isSome ∧ s.Rests (t.withPlan plan)

variable {s : Session} {t : Tables}

theorem ends_getType (h : s.Rests t) (name : String) :
    Ends (getType name) s (fun _ => True) (fun row s' => row = t.type? name ∧ s'.Rests t)
      (FailsWith t fun _ => False) := by
  refine Ends.bind (fun _ s' => s'.Rests t)
    (ends_execute (fun _ => trivial) ⟨h.committed, h.draft⟩ fun _ _ => ⟨Or.inl ⟨_, _, rfl⟩, h.committed, h.draft⟩) ?_
  exact fun _ s' hs' => .read ⟨congrArg (·.type? name) hs'.draft, hs'⟩

theorem ends_needType (h : s.Rests t) (name : String) :
    Ends (needType name) s (fun _ => True) (fun row s' => t.type? name = some row ∧ s'.Rests t)
      (FailsWith t fun f => f = .domain (.unknownImageType name) ∧ t.type? name = none) := by
  refine Ends.bind _ ((ends_getType h name).mono (fun _ he => he) (fun _ _ hv => hv) fun _ _ hf =>
    ⟨hf.1.imp_right False.elim, hf.2⟩) fun row s' ⟨hrow, hs'⟩ => ?_
  cases row with
  | some row => exact .pure ⟨hrow.symm, hs'⟩
  | none => exact .fail ⟨Or.inr ⟨rfl, hrow.symm⟩, hs'⟩

theorem ends_writePlan (h : s.Rests t) (plan : NewPlan) :
    Ends (writePlan t.plans.length plan) s (fun _ => True) (fun _ s' => s'.Rests (t.withPlan plan))
      fun f s' => f.IsRefusal ∧ s'.committed = t := by
  -- With or without a plan to deactivate, what is left is to insert the new one and to commit.
  have hinsert : ∀ (u : Tables) (s' : Session), s'.committed = t → s'.draft = u →
      t.withPlan plan = u.insertPlan t.plans.length plan →
      Ends (do
        edit (Tables.insertPlan t.plans.length plan)
        commit "create rampup plan") s' (fun _ => True) (fun _ s' => s'.Rests (t.withPlan plan))
        fun f s' => f.IsRefusal ∧ s'.committed = t := by
    intro u s' hcommitted hdraft hplan
    subst hdraft
    refine .change_bind (ends_commit (fun _ => trivial) ⟨hplan.symm, hplan.symm⟩ fun _ => ⟨⟨_, _, rfl⟩, hcommitted⟩)
  unfold writePlan
  cases hactive : plan.activate with
  | true =>
    refine Ends.bind (fun _ s' => s'.Rests t)
      (ends_execute (fun _ => trivial) ⟨h.committed, h.draft⟩ fun _ _ => ⟨⟨_, _, rfl⟩, h.committed⟩) fun _ s' hs' => ?_
    refine .change_bind (hinsert (t.deactivate plan.imageType plan.createdBy) _ hs'.committed ?_ ?_)
    · exact congrArg (Tables.deactivate plan.imageType plan.createdBy) hs'.draft
    · rw [Tables.withPlan, ite_cond_eq_true _ _ (eq_true hactive)]
  | false =>
    refine hinsert t s h.committed h.draft ?_
    rw [Tables.withPlan, ite_cond_eq_false _ _ (by simp [hactive])]

theorem ends_createPlan (h : s.Rests t) (plan : NewPlan) :
    Ends (createPlan plan) s (fun _ => True)
      (fun id s' => id = .made t.plans.length ∧ (t.type? plan.imageType).isSome ∧ s'.Rests (t.withPlan plan))
      fun f s' =>
        FailsWith t (fun f => f = .domain (.unknownImageType plan.imageType) ∧ t.type? plan.imageType = none) f s' ∨
          FailsStored t plan f s' := by
  refine Ends.bind _ ((ends_needType h plan.imageType).mono (fun _ he => he) (fun _ _ hv => hv) fun _ _ => .inl)
    fun row s₁ ⟨hrow, hs₁⟩ => ?_
  have htype : (t.type? plan.imageType).isSome = true := hrow ▸ rfl
  refine .read_bind ?_
  dsimp only
  rw [hs₁.draft]
  refine Ends.bind (fun _ s' => s'.Rests (t.withPlan plan)) (.undoing ?_) fun _ s₂ hs₂ => ?_
  · exact (ends_writePlan hs₁ plan).mono (fun _ he => he) (fun _ _ hv => hv) fun _ _ hf =>
      .inl ⟨Or.inl hf.1, rests_rollback hf.2⟩
  · refine Ends.bind (fun _ s' => s'.Rests (t.withPlan plan)) (ends_refresh ⟨hs₂.committed, hs₂.draft⟩ fun reason =>
      .inr ⟨⟨reason, rfl⟩, htype, hs₂.committed, hs₂.draft⟩) fun _ s₃ hs₃ => ?_
    exact .report_bind (fun _ _ => trivial) (.pure ⟨rfl, htype, hs₃⟩)

theorem ends_needActivePlan (h : s.Rests t) (imageType : String) :
    Ends (needActivePlan imageType) s (fun _ => True)
      (fun row s' => (t.activePlans [imageType]).head? = some row ∧ s'.Rests t)
      (FailsWith t fun f =>
        f = .domain (.noActivePlan imageType) ∧ (t.activePlans [imageType]).head? = none) := by
  refine Ends.bind (fun _ s' => s'.Rests t) (ends_execute (fun _ => trivial) ⟨h.committed, h.draft⟩ fun _ _ =>
    ⟨Or.inl ⟨_, _, rfl⟩, h.committed, h.draft⟩) fun _ s' hs' => ?_
  refine .read_bind ?_
  dsimp only
  rw [hs'.draft]
  cases hrow : (t.activePlans [imageType]).head? with
  | some row => exact .pure ⟨rfl, hs'⟩
  | none => exact .fail ⟨Or.inr ⟨rfl, rfl⟩, hs'⟩

theorem ends_updatePlan (h : s.Rests t) (imageType : String) (entries : List Entry) (user : Option String) :
    Ends (updatePlan imageType entries user) s (fun _ => True)
      (fun id s' => ∃ row, (t.activePlans [imageType]).head? = some row ∧ id = row.id ∧
        s'.Rests (t.replaceShares row.number entries user))
      (FailsWith t fun f =>
        f = .domain (.noActivePlan imageType) ∧ (t.activePlans [imageType]).head? = none) := by
  refine Ends.bind _ (ends_needActivePlan h imageType) fun row s₁ ⟨hrow, hs₁⟩ => ?_
  refine .change_bind ?_
  refine Ends.bind (fun _ s' => s'.Rests (t.replaceShares row.number entries user)) (.undoing ?_) fun _ s₂ hs₂ => ?_
  · have hdraft := congrArg (Tables.replaceShares row.number entries user) hs₁.draft
    exact ends_commit (fun _ => trivial) ⟨hdraft, hdraft⟩ fun _ =>
      ⟨Or.inl ⟨_, _, rfl⟩, rests_rollback hs₁.committed⟩
  · exact .report_bind (fun _ _ => trivial) (.pure ⟨row, hrow, rfl, hs₂⟩)

/-! ### Writing plans where nothing is refused -/

section

variable (imageType : String) (plan : NewPlan) (entries : List Entry) (user : Option String)

theorem quiet_needType : Quiet (needType imageType) := by
  refine Quiet.bind ((Quiet.execute _).bind fun _ => .query _) fun row => ?_
  cases row with
  | some row => exact .pure row
  | none => exact .fail nofun (Failure.not_isUnread_domain _)

theorem quiet_createPlan : Quiet (createPlan plan) := by
  have hinsert : ∀ number, Quiet (writePlan number plan) := by
    intro number
    have hcommit := (Quiet.edit (f := Tables.insertPlan number plan) fun _ => rfl).bind fun _ =>
      .commit "create rampup plan"
    unfold writePlan
    split
    · exact (Quiet.execute _).bind fun _ =>
        (Quiet.edit (f := Tables.deactivate plan.imageType plan.createdBy) fun _ => rfl).bind fun _ => hcommit
    · exact hcommit
  exact (quiet_needType plan.imageType).bind fun _ => (Quiet.query _).bind fun number =>
    (hinsert number).undoing.bind fun _ => Quiet.refresh.bind fun _ => (Quiet.report _).bind fun _ => .pure _

theorem quiet_updatePlan : Quiet (updatePlan imageType entries user) := by
  have hneed : Quiet (needActivePlan imageType) := by
    refine Quiet.bind (.execute _) fun _ => (Quiet.query _).bind fun row => ?_
    cases row with
    | some row => exact .pure row
    | none => exact .fail nofun (Failure.not_isUnread_domain _)
  exact hneed.bind fun row => (Quiet.edit (f := Tables.replaceShares row.number entries user) fun _ => rfl).bind fun _ =>
    (Quiet.commit _).undoing.bind fun _ => (Quiet.report _).bind fun _ => .pure _

/-- Where the database refuses nothing, an operation fails for a reason of its own only. -/
theorem ends_of_quiet {α : Type} {a : Action Session α} (hquiet : Quiet a) (hs : s.Granted)
    {onEvent : Event → Prop} {onValue : α → Session → Prop} {reason : Failure → Prop}
    (h : Ends a s onEvent onValue fun f s' => FailsWith t reason f s' ∨ f.IsUnread) :
    Ends a s onEvent (fun x s' => onValue x s' ∧ s'.fault = none) fun f s' => reason f ∧ s'.Calm t where
  events := h.events
  value x hx := ⟨h.value x hx, (hquiet s hs).1.fault⟩
  failure f hf := by
    obtain ⟨hgranted, hkind⟩ := hquiet s hs
    obtain ⟨hrefusal, hunread⟩ := hkind f hf
    obtain ⟨hreason, hrests⟩ := (h.failure f hf).resolve_right hunread
    exact ⟨hreason.resolve_left hrefusal, hrests, hgranted.fault⟩

theorem ends_createPlan_of_takesAll (h : s.Calm t) (htakes : t.engine.TakesAll) :
    Ends (createPlan plan) s (fun _ => True)
      (fun id s' => (id = .made t.plans.length ∧ (t.type? plan.imageType).isSome ∧ s'.Rests (t.withPlan plan)) ∧
        s'.fault = none)
      fun f s' => (f = .domain (.unknownImageType plan.imageType) ∧ t.type? plan.imageType = none) ∧ s'.Calm t :=
  ends_of_quiet (quiet_createPlan plan) (h.granted htakes) ((ends_createPlan h.toRests plan).mono (fun _ he => he)
    (fun _ _ hv => hv) fun _ _ hf => hf.imp_right And.left)

theorem ends_updatePlan_of_takesAll (h : s.Calm t) (htakes : t.engine.TakesAll) :
    Ends (updatePlan imageType entries user) s (fun _ => True)
      (fun id s' => (∃ row, (t.activePlans [imageType]).head? = some row ∧ id = row.id ∧
        s'.Rests (t.replaceShares row.number entries user)) ∧ s'.fault = none)
      fun f s' =>
        (f = .domain (.noActivePlan imageType) ∧ (t.activePlans [imageType]).head? = none) ∧ s'.Calm t :=
  ends_of_quiet (quiet_updatePlan imageType entries user) (h.granted htakes)
    ((ends_updatePlan h.toRests imageType entries user).mono (fun _ he => he) (fun _ _ hv => hv) fun _ _ => .inl)

theorem result_createPlan (h : s.Calm t) (htakes : t.engine.TakesAll) :
    ((createPlan plan).run s).result =
      if (t.type? plan.imageType).isSome then .ok (.made t.plans.length)
      else .error (.domain (.unknownImageType plan.imageType)) := by
  have hends := ends_createPlan_of_takesAll plan h htakes
  refine Ends.result_eq (hends.mono (fun _ he => he) ?_ ?_)
  · rintro _ _ ⟨⟨rfl, htype, -⟩, -⟩
    exact if_pos htype
  · rintro _ _ ⟨⟨rfl, htype⟩, -⟩
    rw [htype]
    rfl

theorem calm_createPlan (h : s.Calm t) (htakes : t.engine.TakesAll) :
    ((createPlan plan).run s).state.Calm (if (t.type? plan.imageType).isSome then t.withPlan plan else t) := by
  have hends := ends_createPlan_of_takesAll plan h htakes
  refine Ends.state (p := (Calm · _)) (hends.mono (fun _ he => he) ?_ ?_)
  · rintro _ _ ⟨⟨-, htype, hrests⟩, hfault⟩
    rw [if_pos htype]
    exact ⟨hrests, hfault⟩
  · rintro _ _ ⟨⟨-, htype⟩, hcalm⟩
    rw [htype]
    exact hcalm

theorem result_updatePlan (h : s.Calm t) (htakes : t.engine.TakesAll) :
    ((updatePlan imageType entries user).run s).result =
      match (t.activePlans [imageType]).head? with
      | some row => .ok row.id
      | none => .error (.domain (.noActivePlan imageType)) := by
  have hends := ends_updatePlan_of_takesAll imageType entries user h htakes
  refine Ends.result_eq (hends.mono (fun _ he => he) ?_ ?_)
  · rintro _ _ ⟨⟨row, hrow, rfl, -⟩, -⟩
    rw [hrow]
  · rintro _ _ ⟨⟨rfl, hnone⟩, -⟩
    rw [hnone]

theorem calm_updatePlan (h : s.Calm t) (htakes : t.engine.TakesAll) :
    ((updatePlan imageType entries user).run s).state.Calm
      (match (t.activePlans [imageType]).head? with
      | some row => t.replaceShares row.number entries user
      | none => t) := by
  have hends := ends_updatePlan_of_takesAll imageType entries user h htakes
  refine Ends.state (p := (Calm · _)) (hends.mono (fun _ he => he) ?_ ?_)
  · rintro _ _ ⟨⟨row, hrow, -, hrests⟩, hfault⟩
    rw [hrow]
    exact ⟨hrests, hfault⟩
  · rintro _ _ ⟨⟨-, hnone⟩, hcalm⟩
    rw [hnone]
    exact hcalm

end

/-! ### Reading plans -/

/-- Plans that were read, each under its type; of several plans of a type the last one. -/
def byType (plans : List Plan) : List (String × Plan) :=
  (Names.ordered (plans.map Plan.imageType)).filterMap fun imageType =>
    (lastOf plans imageType).map fun plan => (imageType, plan)

/-- The active plans that are found in tables, each under its type. -/
def found (t : Tables) (imageTypes : List String) : List (String × Plan) :=
  byType ((t.activePlans (Names.ordered imageTypes)).map t.planOf)

theorem lastOf_eq_none_iff {plans : List Plan} {imageType : String} :
    lastOf plans imageType = none ↔ ∀ plan ∈ plans, plan.imageType ≠ imageType := by
  simp [lastOf]

/-- Of one type there is but one active plan, and it is the one that is found. -/
theorem lastOf_activePlans (h : t.Sound) (imageTypes : List String) (imageType : String) :
    lastOf ((t.activePlans imageTypes).map t.planOf) imageType =
      if imageType ∈ imageTypes then activeIn (t.plans.map t.planOf) imageType else none := by
  by_cases hrow : ∃ row ∈ t.activePlans imageTypes, row.imageType = imageType
  · obtain ⟨row, hmem, rfl⟩ := hrow
    obtain ⟨hplan, hactive, htype⟩ := Tables.mem_activePlans.mp hmem
    rw [ite_cond_eq_true _ _ (eq_true htype), h.activeIn_eq hplan hactive]
    refine find?_eq_some_of_unique (List.mem_reverse.mpr (List.mem_map_of_mem hmem)) (by simp [Tables.planOf]) ?_
    intro plan hfound heq
    obtain ⟨other, hother, rfl⟩ := List.mem_map.mp (List.mem_reverse.mp hfound)
    obtain ⟨hotherPlan, hotherActive, -⟩ := Tables.mem_activePlans.mp hother
    rw [h.single.eq_of_mem hotherPlan hplan hotherActive hactive (of_decide_eq_true heq)]
  · have hnone : lastOf ((t.activePlans imageTypes).map t.planOf) imageType = none := by
      refine lastOf_eq_none_iff.mpr fun plan hplan heq => ?_
      obtain ⟨row, hmem, rfl⟩ := List.mem_map.mp hplan
      exact hrow ⟨row, hmem, heq⟩
    rw [hnone]
    -- An active plan of a type that was asked for would have been fetched.
    split
    · rename_i htype
      refine (Tables.activeIn_eq_none fun row hmem hactive heq => hrow ⟨row, ?_, heq⟩).symm
      exact Tables.mem_activePlans.mpr ⟨hmem, hactive, heq ▸ htype⟩
    · rfl

theorem lookup_byType (plans : List Plan) (imageType : String) :
    (byType plans).lookup imageType = lastOf plans imageType := by
  unfold byType
  rw [Names.lookup_filterMap (lastOf plans)]
  split
  · rfl
  · rename_i hnone
    refine (lastOf_eq_none_iff.mpr fun plan hplan heq => hnone ?_).symm
    exact Names.mem_ordered.mpr (List.mem_map.mpr ⟨plan, hplan, heq⟩)

theorem lookup_found (h : t.Sound) (imageTypes : List String) (imageType : String) :
    (found t imageTypes).lookup imageType =
      if imageType ∈ imageTypes then activeIn (t.plans.map t.planOf) imageType else none := by
  have hlast := lastOf_activePlans h (Names.ordered imageTypes) imageType
  simp only [Names.mem_ordered] at hlast
  exact (lookup_byType _ imageType).trans hlast

theorem ends_activePlans_of_read {imageTypes : List String} {plans : List Plan}
    (hread : (s.draft.activePlans (Names.ordered imageTypes)).mapM s.draft.plan = .ok plans) :
    Ends (activePlans imageTypes) s Event.Sound (fun found _ => found = byType plans)
      fun f _ => f.IsRefusal ∧ s.refusal? .execute (s.executed + 1) ≠ none := by
  unfold activePlans
  dsimp only
  split
  · rename_i hempty
    rw [List.isEmpty_iff.mp hempty, Tables.activePlans_nil] at hread
    obtain rfl : [] = plans := Except.ok.inj hread
    exact .pure (by simp [byType])
  · refine Ends.bind (fun _ s' => s'.draft = s.draft) (ends_execute (fun _ => trivial) rfl fun reason hreason =>
      ⟨⟨_, _, rfl⟩, by rw [hreason]; exact Option.some_ne_none reason⟩) fun _ s' hs' => .read_bind ?_
    dsimp only
    rw [hs', hread]
    exact .report_bind (by simp [Event.Sound]) (.pure rfl)

/-- Rows that make no plan end the reading with what is wrong with them. -/
theorem ends_activePlans_of_unread {imageTypes : List String} {issues : List Issue}
    (hread : (s.draft.activePlans (Names.ordered imageTypes)).mapM s.draft.plan = .error issues) :
    Ends (activePlans imageTypes) s Event.Sound (fun _ _ => True) fun f _ => f.IsRefusal ∨ f = .badForm issues := by
  unfold activePlans
  dsimp only
  split
  · exact .pure trivial
  · refine Ends.bind (fun _ s' => s'.draft = s.draft) (ends_execute (fun _ => trivial) rfl fun _ _ =>
      Or.inl ⟨_, _, rfl⟩) fun _ s' hs' => .read_bind ?_
    dsimp only
    rw [hs', hread]
    exact .fail (Or.inr rfl)

theorem result_activePlans_of_unread {imageTypes : List String} {issues : List Issue}
    (hread : (s.draft.activePlans (Names.ordered imageTypes)).mapM s.draft.plan = .error issues) (hfault : s.fault = none) :
    ((activePlans imageTypes).run s).result = .error (.badForm issues) := by
  have hne : (Names.ordered imageTypes).isEmpty = false := by
    refine Bool.eq_false_iff.mpr fun hempty => ?_
    rw [List.isEmpty_iff.mp hempty, Tables.activePlans_nil] at hread
    cases hread
  unfold activePlans
  dsimp only
  rw [hne, if_neg Bool.false_ne_true, run_bind_ok (congrArg Effect.result (run_execute hfault _)), run_execute hfault]
  unfold query
  dsimp only [run_read_bind]
  rw [hread]
  rfl

theorem result_activePlans_of_read {imageTypes : List String} {plans : List Plan}
    (hread : (s.draft.activePlans (Names.ordered imageTypes)).mapM s.draft.plan = .ok plans)
    (hfree : s.refusal? .execute (s.executed + 1) = none) :
    ((activePlans imageTypes).run s).result = .ok (byType plans) := by
  have hends := ends_activePlans_of_read hread
  cases hresult : ((activePlans imageTypes).run s).result with
  | error f => exact absurd hfree (hends.failure f hresult).2
  | ok found => rw [hends.value found hresult]

theorem read_activePlans (h : t.Sound) (imageTypes : List String) :
    (t.activePlans imageTypes).mapM t.plan = .ok ((t.activePlans imageTypes).map t.planOf) :=
  mapM_eq_ok fun _ hrow => h.plan_eq (Tables.mem_activePlans.mp hrow).1

theorem ends_activePlans (h : s.draft.Sound) (imageTypes : List String) :
    Ends (activePlans imageTypes) s Event.Sound (fun plans _ => plans = found s.draft imageTypes)
      fun f _ => f.IsRefusal ∧ s.refusal? .execute (s.executed + 1) ≠ none :=
  ends_activePlans_of_read (read_activePlans h _)

theorem result_activePlans (h : s.draft.Sound) (hfree : s.refusal? .execute (s.executed + 1) = none)
    (imageTypes : List String) : ((activePlans imageTypes).run s).result = .ok (found s.draft imageTypes) :=
  result_activePlans_of_read (read_activePlans h _) hfree

/-- What the database answers with are its active plans. -/
theorem of_found (h : t.Sound) (imageTypes : List String) :
    PlanAnswer.Of (t.plans.map t.planOf) imageTypes ((found t imageTypes).map fun x => (x.1, some x.2)) := by
  intro imageType
  refine (Names.lookup_map (fun _ => some) imageType (found t imageTypes)).trans ?_
  rw [lookup_found h]
  split <;> rfl

theorem reads (h : s.draft.Sound) (hfree : s.refusal? .execute (s.executed + 1) = none) :
    Reads writer source s (s.draft.plans.map s.draft.planOf) where
  one imageType := by
    show ((activePlan? imageType).run s).result = _
    unfold activePlan?
    rw [run_bind_ok (result_activePlans h hfree [imageType])]
    simp [lookup_found h]
  many imageTypes := by
    refine ⟨(found s.draft imageTypes).map fun x => (x.1, some x.2), ?_, of_found h imageTypes⟩
    show ((activePlans imageTypes >>= fun plans => _).run s).result = _
    rw [run_bind_ok (result_activePlans h hfree imageTypes)]
    rfl

theorem ends_latestActive (imageTypes : List String) :
    Ends (latestActive imageTypes) s Event.Sound (fun _ _ => True) fun f _ => f.IsRefusal := by
  unfold latestActive
  split
  · exact .pure trivial
  · refine Ends.bind (fun _ _ => True) (ends_execute (fun _ => trivial) trivial fun _ _ => ⟨_, _, rfl⟩) fun _ s' _ => ?_
    exact .read_bind (.report_bind (by simp [Event.Sound]) (.pure trivial))

/-- Whatever statements the database refuses, it tells of no corrupt plan. -/
theorem source_sound (h : s.draft.Sound) : Source.Sound source s where
  activePlans imageTypes := by
    refine Ends.bind (fun plans _ => plans = found s.draft imageTypes) ((ends_activePlans h imageTypes).mono
      (fun _ he => he) (fun _ _ hv => hv) fun f _ hf => ?_) fun plans s' hplans => .pure ?_
    · obtain ⟨⟨operation, reason, rfl⟩, -⟩ := hf
      trivial
    · subst hplans
      rintro answer ⟨⟩
      exact (of_found h imageTypes).sound h.inOrder.accepted
  latestActive imageTypes s' := by
    show Ends (latestActive imageTypes >>= fun rows => _) s' _ _ _
    refine Ends.bind (fun _ _ => True) ((ends_latestActive imageTypes).mono (fun _ he => he) (fun _ _ hv => hv)
      fun f _ hf => ?_) fun _ _ _ => .pure trivial
    obtain ⟨operation, reason, rfl⟩ := hf
    trivial

/-! ### Reading versions and types -/

theorem result_latestActive (h : s.fault = none) (imageTypes : List String) :
    ((latestActive imageTypes).run s).result = .ok (s.draft.latestActive imageTypes) := by
  unfold latestActive
  split
  · rename_i hempty
    have hnone : s.draft.latestActive imageTypes = [] := by
      unfold Tables.latestActive
      rw [List.isEmpty_iff.mp hempty, Names.ordered_nil, List.filterMap_nil]
    rw [hnone]
    rfl
  · rw [run_bind_ok (congrArg Effect.result (run_execute h _)), run_execute h]
    rfl

theorem result_typeNames (h : s.fault = none) : (typeNames.run s).result = .ok s.draft.typeNames := by
  unfold typeNames
  rw [run_bind_ok (congrArg Effect.result (run_execute h _)), run_execute h]
  rfl

end ImageRollout.Database
