import ImageRollout.Proofs.Resolution.Batch

/-! The store calls of a batch. The plans come first, in one call for all requested types. The active
    versions come second, in one call for the types that no plan gave a version, if there are any and the
    plans did not end the batch. A store's failure ends the batch as it is, a silent store ends it as one
    that timed out, and no store is asked twice. A call that there is no time for counts as one to a silent
    store: it is made, and nothing comes of it. -/

namespace ImageRollout

variable {σ α : Type}

/-! ### One call -/

/-- What resolution takes from what a store comes to. -/
def received (call : StoreCall) (timeout : Seconds) : Except Failure (Reply α) → Except Failure α
  | .ok (.answered a) => .ok a
  | .ok .silent => .error (.domain (.storeTimedOut call.name timeout))
  | .error f => .error f

section

variable {timeout : Seconds} (call : StoreCall) (answer : Action σ (Reply α)) (b : Backing σ)

/-- A call that has time is made once and runs, and its store goes on to the state that the answer leaves. -/
theorem run_callStore (htime : timeout.isOver = false) :
    ((callStore timeout call answer).run b).result = received call timeout (answer.run b.store).result ∧
      ((callStore timeout call answer).run b).state = b.afterCall call (answer.run b.store).state := by
  have hstore : (Backing.onStore answer).run (b.afterCall call b.store) =
      ⟨(answer.run b.store).result, (answer.run b.store).events, b.afterCall call (answer.run b.store).state⟩ := rfl
  rw [callStore_of_inTime htime, Action.run_change_bind]
  cases hresult : (answer.run b.store).result with
  | ok reply =>
    rw [hresult] at hstore
    rw [Action.run_bind_ok (congrArg Effect.result hstore), hstore]
    cases reply <;> exact ⟨rfl, rfl⟩
  | error f =>
    rw [hresult] at hstore
    rw [Action.run_bind_error (congrArg Effect.result hstore), hstore]
    exact ⟨rfl, rfl⟩

/-- Without time the call is made, but the store is left as it is. -/
theorem run_callStore_of_over (htime : timeout.isOver = true) :
    ((callStore timeout call answer).run b).result = .error (.domain (.storeTimedOut call.name timeout)) ∧
      ((callStore timeout call answer).run b).state = { b with made := b.made ++ [call] } := by
  rw [callStore_of_over htime]
  exact ⟨rfl, rfl⟩

end

/-! ### The second call -/

section

variable {source : Source σ} {rules : Rules} {requested : List String} {findings : Findings} {b : Backing σ}

theorem run_fallbacks (source : Source σ) (htime : rules.timeout.isOver = false) {remaining : List String}
    (hne : remaining ≠ []) (b : Backing σ) :
    ((fallbacks source rules remaining).run b).result =
        (received (.latestActive remaining) rules.timeout ((source.latestActive remaining).run b.store).result).map
          (usedRows remaining) ∧
      ((fallbacks source rules remaining).run b).state =
        b.afterCall (.latestActive remaining) ((source.latestActive remaining).run b.store).state := by
  obtain ⟨hresult, hstate⟩ := run_callStore (.latestActive remaining) (source.latestActive remaining) b htime
  unfold fallbacks
  rw [ite_cond_eq_false _ _ (by simpa using hne)]
  constructor
  · rw [Action.result_bind (g := usedRows remaining) fun _ _ => rfl, hresult]
  · rw [Action.state_bind fun _ _ => rfl, hstate]

/-- What comes after the rows calls no store. -/
theorem state_settle :
    ((settle source rules requested findings).run b).state =
      ((fallbacks source rules (Names.without requested (findings.planned.map Prod.fst))).run b).state := by
  unfold settle
  refine Action.state_bind (fun rows c => ?_) b
  rw [Action.run_report_bind]
  dsimp only
  split <;> rfl

theorem result_settle_of_rows {rows : List ActiveVersion}
    (h : ((fallbacks source rules (Names.without requested (findings.planned.map Prod.fst))).run b).result = .ok rows) :
    ((settle source rules requested findings).run b).result = verdict requested findings rows := by
  unfold settle verdict
  dsimp only
  rw [Action.run_bind_ok h, Action.run_report_bind]
  dsimp only
  split <;> rfl

theorem result_settle_of_failure {f : Failure}
    (h : ((fallbacks source rules (Names.without requested (findings.planned.map Prod.fst))).run b).result = .error f) :
    ((settle source rules requested findings).run b).result = .error f := by
  unfold settle
  dsimp only
  rw [Action.run_bind_error h]

end

/-- A verdict is either the versions or the types without one. -/
theorem verdict_cases (requested : List String) (findings : Findings) (rows : List ActiveVersion) :
    (∃ versions, verdict requested findings rows = .ok versions) ∨
      ∃ missing corrupt, verdict requested findings rows = .error (.domain (.unresolved missing corrupt)) := by
  unfold verdict
  dsimp only
  split
  · exact Or.inl ⟨_, rfl⟩
  · exact Or.inr ⟨_, _, rfl⟩

/-- Where every requested type has a version from its plan, the verdict is the versions. -/
theorem verdict_of_planned {imageTypes : List String} {outcome : String → Outcome}
    (h : unplanned imageTypes outcome = []) (rows : List ActiveVersion) :
    ∃ versions, verdict (Names.ordered imageTypes) (Findings.of (Names.ordered imageTypes) outcome) rows =
      .ok versions := by
  have hsettled : ((Names.ordered imageTypes).filter fun imageType =>
      (settled? (Findings.of (Names.ordered imageTypes) outcome).planned rows imageType).isNone) = [] := by
    refine List.filter_eq_nil_iff.mpr fun imageType hmem hnone => ?_
    have hversion := List.filter_eq_nil_iff.mp h imageType hmem
    unfold settled? at hnone
    rw [Findings.lookup_planned, ite_cond_eq_true _ _ (eq_true hmem), Option.isNone_or, Bool.and_eq_true] at hnone
    exact hversion hnone.1
  unfold verdict
  rw [hsettled]
  exact ⟨_, rfl⟩

/-! ### The time of a call -/

/-- Stores that nothing is heard from. -/
def Source.silenced (source : Source σ) : Source σ where
  activePlans _ := pure .silent
  latestActive _ := pure .silent
  typeNames? := source.typeNames?.map fun _ => pure .silent

/-- Stores as a caller meets them who gives each call so much time. Without any time nothing is heard from them,
    whatever they would have answered. -/
def Source.within (timeout : Seconds) (source : Source σ) : Source σ :=
  if timeout.isOver then source.silenced else source

theorem Source.within_of_over {timeout : Seconds} (htime : timeout.isOver = true) (source : Source σ) :
    source.within timeout = source.silenced := if_pos htime

theorem Source.within_of_inTime {timeout : Seconds} (htime : timeout.isOver = false) (source : Source σ) :
    source.within timeout = source := if_neg (by simp [htime])

/-! ### The calls of a batch -/

/-- The calls that a batch has made past the state it began in, and the store as they have left it. All of them
    have run, unless there was no time. -/
structure Called (b : Backing σ) (rules : Rules) (made : List StoreCall) (store : σ)
    (effect : Effect (Backing σ) Versions) : Prop where
  made_eq : effect.state.made = b.made ++ made
  calls_eq : effect.state.calls = b.calls ++ if rules.timeout.isOver then [] else made
  store_eq : effect.state.store = store

theorem Called.of_inTime {b : Backing σ} {rules : Rules} {made : List StoreCall} {store : σ}
    {effect : Effect (Backing σ) Versions} (htime : rules.timeout.isOver = false)
    (hmade : effect.state.made = b.made ++ made) (hcalls : effect.state.calls = b.calls ++ made)
    (hstore : effect.state.store = store) : Called b rules made store effect where
  made_eq := hmade
  calls_eq := by
    rw [htime, if_neg Bool.false_ne_true]
    exact hcalls
  store_eq := hstore

section

variable {source : Source σ} {rules : Rules} {imageTypes : List String} {strategy : Strategy} {b : Backing σ}

/-- What the plan store comes to for a batch. -/
def plansEnd (source : Source σ) (imageTypes : List String) (b : Backing σ) : Effect σ (Reply PlanAnswer) :=
  (source.activePlans (Names.ordered imageTypes)).run b.store

/-- What the version store comes to for a batch that asks for the remaining types. -/
def versionsEnd (source : Source σ) (imageTypes remaining : List String) (b : Backing σ) :
    Effect σ (Reply (Option (List ActiveVersion))) :=
  (source.latestActive remaining).run (plansEnd source imageTypes b).state

theorem run_resolveAll_nil (strategy : Option Strategy) : (resolveAll source rules [] strategy).run b = ⟨.ok [], [], b⟩ := by
  simp [resolveAll]

theorem run_resolveAll_of_over (htime : rules.timeout.isOver = true) (hne : imageTypes ≠ []) :
    ((resolveAll source rules imageTypes (some strategy)).run b).result =
        .error (.domain (.storeTimedOut "fetch_rampup_plans" rules.timeout)) ∧
      Called b rules [.activePlans (Names.ordered imageTypes)] b.store
        ((resolveAll source rules imageTypes (some strategy)).run b) := by
  obtain ⟨hresult, hstate⟩ := run_callStore_of_over (.activePlans (Names.ordered imageTypes))
    (source.activePlans (Names.ordered imageTypes)) b htime
  have hmade := congrArg Backing.made hstate
  have hcalls := congrArg Backing.calls hstate
  have hstore := congrArg Backing.store hstate
  rw [resolveAll_eq source rules hne, Action.run_bind_error hresult]
  refine ⟨rfl, hmade, ?_, hstore⟩
  rw [htime, if_pos rfl, List.append_nil]
  exact hcalls

theorem run_resolveAll_of_plans_failed (htime : rules.timeout.isOver = false) (hne : imageTypes ≠ []) {f : Failure}
    (h : received (.activePlans (Names.ordered imageTypes)) rules.timeout (plansEnd source imageTypes b).result =
      .error f) :
    ((resolveAll source rules imageTypes (some strategy)).run b).result = .error f ∧
      Called b rules [.activePlans (Names.ordered imageTypes)] (plansEnd source imageTypes b).state
        ((resolveAll source rules imageTypes (some strategy)).run b) := by
  obtain ⟨hresult, hstate⟩ := run_callStore (.activePlans (Names.ordered imageTypes))
    (source.activePlans (Names.ordered imageTypes)) b htime
  rw [resolveAll_eq source rules hne, Action.run_bind_error (hresult.trans h)]
  exact ⟨rfl, .of_inTime htime (congrArg Backing.made hstate) (congrArg Backing.calls hstate)
    (congrArg Backing.store hstate)⟩

theorem run_resolveAll_of_corrupt (htime : rules.timeout.isOver = false) (hne : imageTypes ≠ []) {plans : PlanAnswer}
    (h : (plansEnd source imageTypes b).result = .ok (.answered plans)) {f : Failure}
    (hcorrupt : (Names.ordered imageTypes).findSome? (fun imageType =>
      (outcomeIn strategy plans (Names.ordered imageTypes) b.generator imageType).failure? rules.strict imageType) =
        some f) :
    ((resolveAll source rules imageTypes (some strategy)).run b).result = .error f ∧
      Called b rules [.activePlans (Names.ordered imageTypes)] (plansEnd source imageTypes b).state
        ((resolveAll source rules imageTypes (some strategy)).run b) := by
  obtain ⟨before, last, after, hsplit, hlast, hbefore⟩ := List.findSome?_eq_some_iff.mp hcorrupt
  have hfailed : ((surveyed rules.strict (some strategy) plans (Names.ordered imageTypes)).run
      (b.withPlans source imageTypes)).result = .error f := by
    rw [hsplit] at hlast hbefore ⊢
    exact result_surveyed_of_failure (b := b.withPlans source imageTypes) (hsplit ▸ Names.ascending_ordered imageTypes)
      rfl hbefore hlast
  rw [run_resolveAll_of_answered htime hne h]
  dsimp only
  rw [Action.run_bind_error hfailed, run_surveyed]
  exact ⟨rfl, .of_inTime htime rfl rfl rfl⟩

section

variable {plans : PlanAnswer} {outcome : String → Outcome} (htime : rules.timeout.isOver = false)
  (hne : imageTypes ≠ []) (h : (plansEnd source imageTypes b).result = .ok (.answered plans))
  (houtcome : outcome = outcomeIn strategy plans (Names.ordered imageTypes) b.generator)
  (hnone : ∀ imageType ∈ imageTypes, (outcome imageType).failure? rules.strict imageType = none)

include htime hne h houtcome hnone

theorem run_resolveAll_of_planned (hplanned : unplanned imageTypes outcome = []) :
    (∃ versions, ((resolveAll source rules imageTypes (some strategy)).run b).result = .ok versions) ∧
      Called b rules [.activePlans (Names.ordered imageTypes)] (plansEnd source imageTypes b).state
        ((resolveAll source rules imageTypes (some strategy)).run b) := by
  have hremaining : Names.without (Names.ordered imageTypes)
      ((Findings.of (Names.ordered imageTypes) outcome).planned.map Prod.fst) = [] :=
    (Findings.without_planned _ _).trans hplanned
  rw [run_resolveAll_of_no_failure htime hne h houtcome hnone]
  dsimp only
  constructor
  · have hrows : ((fallbacks source rules (Names.without (Names.ordered imageTypes)
        ((Findings.of (Names.ordered imageTypes) outcome).planned.map Prod.fst))).run
          { b.withPlans source imageTypes with
            generator := drawnPast strategy plans (Names.ordered imageTypes) b.generator
            asks := b.asks ++ (Findings.of (Names.ordered imageTypes) outcome).asks }).result = .ok [] := by
      rw [hremaining]
      rfl
    rw [result_settle_of_rows hrows]
    exact verdict_of_planned hplanned []
  · refine .of_inTime htime ?_ ?_ ?_ <;> rw [state_settle_of_planned hremaining] <;> rfl

theorem run_resolveAll_of_unplanned (hunplanned : unplanned imageTypes outcome ≠ []) :
    (∀ f, received (.latestActive (unplanned imageTypes outcome)) rules.timeout
          (versionsEnd source imageTypes (unplanned imageTypes outcome) b).result = .error f →
        ((resolveAll source rules imageTypes (some strategy)).run b).result = .error f) ∧
      (∀ rows, received (.latestActive (unplanned imageTypes outcome)) rules.timeout
          (versionsEnd source imageTypes (unplanned imageTypes outcome) b).result = .ok rows →
        ((resolveAll source rules imageTypes (some strategy)).run b).result =
          verdict (Names.ordered imageTypes) (Findings.of (Names.ordered imageTypes) outcome)
            (usedRows (unplanned imageTypes outcome) rows)) ∧
      Called b rules [.activePlans (Names.ordered imageTypes), .latestActive (unplanned imageTypes outcome)]
        (versionsEnd source imageTypes (unplanned imageTypes outcome) b).state
        ((resolveAll source rules imageTypes (some strategy)).run b) := by
  have hremaining : Names.without (Names.ordered imageTypes)
      ((Findings.of (Names.ordered imageTypes) outcome).planned.map Prod.fst) = unplanned imageTypes outcome :=
    Findings.without_planned _ _
  rw [run_resolveAll_of_no_failure htime hne h houtcome hnone]
  dsimp only
  obtain ⟨hresult, hstate⟩ := run_fallbacks source htime hunplanned { b.withPlans source imageTypes with
    generator := drawnPast strategy plans (Names.ordered imageTypes) b.generator
    asks := b.asks ++ (Findings.of (Names.ordered imageTypes) outcome).asks }
  refine ⟨fun f hf => ?_, fun rows hrows => ?_, .of_inTime htime ?_ ?_ ?_⟩
  · refine result_settle_of_failure ?_
    rw [hremaining, hresult]
    exact congrArg (Except.map _) hf
  · refine result_settle_of_rows ?_
    rw [hremaining, hresult]
    exact congrArg (Except.map _) hrows
  · rw [state_settle, hremaining, hstate]
    exact List.append_assoc _ _ _
  · rw [state_settle, hremaining, hstate]
    exact List.append_assoc _ _ _
  · rw [state_settle, hremaining, hstate]
    rfl

end

theorem mem_unplanned {outcome : String → Outcome} {imageType : String} :
    imageType ∈ unplanned imageTypes outcome ↔ imageType ∈ imageTypes ∧ (outcome imageType).version? = none := by
  simp [unplanned]

/-- The plans end a batch: the rules are strict, and one of the requested types has a corrupt plan. -/
def EndedByPlans (rules : Rules) (imageTypes : List String) (outcome : String → Outcome) : Prop :=
  rules.strict = true ∧ ∃ imageType ∈ imageTypes, (outcome imageType).violation?.isSome

section

variable (hrange : strategy.InRange b.generator) (plans : PlanAnswer)

include hrange

theorem failure?_eq_none_iff :
    (∀ imageType ∈ imageTypes,
        (outcomeIn strategy plans (Names.ordered imageTypes) b.generator imageType).failure? rules.strict imageType =
          none) ↔
      ¬EndedByPlans rules imageTypes (outcomeIn strategy plans (Names.ordered imageTypes) b.generator) := by
  unfold EndedByPlans
  simp only [failure?_outcomeIn hrange]
  cases rules.strict <;> simp

theorem exists_failure_of_corrupt
    (h : EndedByPlans rules imageTypes (outcomeIn strategy plans (Names.ordered imageTypes) b.generator)) :
    ∃ imageType reason, (Names.ordered imageTypes).findSome? (fun imageType =>
      (outcomeIn strategy plans (Names.ordered imageTypes) b.generator imageType).failure? rules.strict imageType) =
        some (.domain (.corruptPlan imageType reason)) := by
  have hsome : ¬∀ imageType ∈ Names.ordered imageTypes,
      (outcomeIn strategy plans (Names.ordered imageTypes) b.generator imageType).failure? rules.strict imageType =
        none := by
    simp only [Names.mem_ordered]
    exact fun hnone => (failure?_eq_none_iff hrange plans).mp hnone h
  obtain ⟨f, hf⟩ := Option.ne_none_iff_exists'.mp fun hnone => hsome (List.findSome?_eq_none_iff.mp hnone)
  obtain ⟨imageType, -, hfailure⟩ := List.exists_of_findSome?_eq_some hf
  rw [failure?_outcomeIn hrange, if_pos h.1] at hfailure
  obtain ⟨violation, -, rfl⟩ := Option.map_eq_some_iff.mp hfailure
  exact ⟨imageType, violation.text, hf⟩

end

/-! ### What a batch that comes to versions gives -/

theorem lookup_of_verdict {requested : List String} {findings : Findings} {rows : List ActiveVersion} {versions : Versions}
    (h : verdict requested findings rows = .ok versions) {imageType : String} (hmem : imageType ∈ requested) :
    versions.lookup imageType = settled? findings.planned rows imageType := by
  unfold verdict at h
  dsimp only at h
  split at h
  · cases h
    rw [Names.lookup_filterMap (settled? findings.planned rows), if_pos hmem]
  · cases h

theorem verdict_of_settle {requested : List String} {findings : Findings} {versions : Versions}
    (h : ((settle source rules requested findings).run b).result = .ok versions) :
    ∃ rows, verdict requested findings rows = .ok versions := by
  cases hrows : ((fallbacks source rules (Names.without requested (findings.planned.map Prod.fst))).run b).result with
  | ok rows => exact ⟨rows, (result_settle_of_rows hrows).symm.trans h⟩
  | error f => cases (result_settle_of_failure hrows).symm.trans h

theorem keys_of_verdict {requested : List String} {findings : Findings} {rows : List ActiveVersion} {versions : Versions}
    (h : verdict requested findings rows = .ok versions) : versions.map Prod.fst = requested := by
  unfold verdict at h
  dsimp only at h
  split at h
  · next hall =>
    cases h
    rw [Names.keys_filterMap (settled? findings.planned rows), List.filter_eq_self]
    intro imageType hmem
    have hsome := List.filter_eq_nil_iff.mp (List.isEmpty_iff.mp hall) imageType hmem
    rwa [Option.isNone_iff_eq_none, ← ne_eq, ← Option.isSome_iff_ne_none] at hsome
  · cases h

/-- A batch that comes to versions has one for each of its types, in code point order, whatever the stores are. -/
theorem keys_resolveAll {strategy : Option Strategy} {versions : Versions}
    (h : ((resolveAll source rules imageTypes strategy).run b).result = .ok versions) :
    versions.map Prod.fst = Names.ordered imageTypes := by
  by_cases hne : imageTypes = []
  · subst hne
    rw [run_resolveAll_nil] at h
    cases h
    exact Names.ordered_nil.symm
  · rw [resolveAll_eq source rules hne] at h
    obtain ⟨plans, _, h⟩ := Action.exists_of_bind_ok h
    obtain ⟨_, _, h⟩ := Action.exists_of_bind_ok h
    obtain ⟨findings, _, h⟩ := Action.exists_of_bind_ok h
    obtain ⟨rows, hverdict⟩ := verdict_of_settle h
    exact keys_of_verdict hverdict

/-- A batch that has its plans runs out of time, ends at one of them, or goes on past them. -/
theorem ends_early_or_goes_on (hne : imageTypes ≠ []) {plans : PlanAnswer}
    (hplans : (plansEnd source imageTypes b).result = .ok (.answered plans)) {outcome : String → Outcome}
    (houtcome : outcome = outcomeIn strategy plans (Names.ordered imageTypes) b.generator) :
    ((resolveAll source rules imageTypes (some strategy)).run b).result =
        .error (.domain (.storeTimedOut "fetch_rampup_plans" rules.timeout)) ∨
      (∃ imageType f, (outcome imageType).failure? rules.strict imageType = some f ∧
        ((resolveAll source rules imageTypes (some strategy)).run b).result = .error f) ∨
      rules.timeout.isOver = false ∧ ∀ imageType ∈ imageTypes, (outcome imageType).failure? rules.strict imageType = none := by
  subst houtcome
  cases htime : rules.timeout.isOver with
  | true => exact Or.inl (run_resolveAll_of_over htime hne).1
  | false =>
    refine Or.inr ?_
    cases hfailure : (Names.ordered imageTypes).findSome? fun imageType =>
        (outcomeIn strategy plans (Names.ordered imageTypes) b.generator imageType).failure? rules.strict imageType with
    | some f =>
      obtain ⟨imageType, -, hfound⟩ := List.exists_of_findSome?_eq_some hfailure
      exact Or.inl ⟨imageType, f, hfound, (run_resolveAll_of_corrupt htime hne hplans hfailure).1⟩
    | none =>
      exact Or.inr ⟨rfl, fun imageType hmem =>
        List.findSome?_eq_none_iff.mp hfailure imageType (Names.mem_ordered.mpr hmem)⟩

/-- A batch that comes to versions gives a requested type that of its plan, if the plan gives one. -/
theorem lookup_resolveAll {plans : PlanAnswer} {versions : Versions}
    (hplans : (plansEnd source imageTypes b).result = .ok (.answered plans))
    (hresult : ((resolveAll source rules imageTypes (some strategy)).run b).result = .ok versions)
    {imageType version : String} (hmem : imageType ∈ imageTypes)
    (hversion : (outcomeIn strategy plans (Names.ordered imageTypes) b.generator imageType).version? = some version) :
    versions.lookup imageType = some version := by
  have hne : imageTypes ≠ [] := List.ne_nil_of_mem hmem
  generalize houtcome : outcomeIn strategy plans (Names.ordered imageTypes) b.generator = outcome at hversion
  rcases ends_early_or_goes_on hne hplans houtcome.symm with hover | ⟨_, f, -, hfailed⟩ | ⟨htime, hnone⟩
  · cases hover.symm.trans hresult
  · cases hfailed.symm.trans hresult
  rw [run_resolveAll_of_no_failure htime hne hplans houtcome.symm hnone] at hresult
  obtain ⟨rows, hverdict⟩ := verdict_of_settle hresult
  have hrequested : imageType ∈ Names.ordered imageTypes := Names.mem_ordered.mpr hmem
  rw [lookup_of_verdict hverdict hrequested, settled?, Findings.lookup_planned, if_pos hrequested, hversion]
  rfl

/-! ### Every end of a batch -/

/-- How a batch goes on from its plans, where the outcomes are those that the plans give. -/
structure GoesOn (source : Source σ) (rules : Rules) (imageTypes : List String) (b : Backing σ)
    (outcome : String → Outcome) (effect : Effect (Backing σ) Versions) : Prop where
  corrupt : EndedByPlans rules imageTypes outcome →
    Called b rules [.activePlans (Names.ordered imageTypes)] (plansEnd source imageTypes b).state effect ∧
      ∃ imageType reason, effect.result = .error (.domain (.corruptPlan imageType reason))
  planned : ¬EndedByPlans rules imageTypes outcome →
    (∀ imageType ∈ imageTypes, (outcome imageType).version? ≠ none) →
      Called b rules [.activePlans (Names.ordered imageTypes)] (plansEnd source imageTypes b).state effect ∧
        ∃ versions, effect.result = .ok versions
  unplanned : ¬EndedByPlans rules imageTypes outcome →
    (∃ imageType ∈ imageTypes, (outcome imageType).version? = none) →
      ∃ remaining, Names.Ascending remaining ∧
        (∀ imageType, imageType ∈ remaining ↔ imageType ∈ imageTypes ∧ (outcome imageType).version? = none) ∧
        Called b rules [.activePlans (Names.ordered imageTypes), .latestActive remaining]
          (versionsEnd source imageTypes remaining b).state effect ∧
        (∀ f, (versionsEnd source imageTypes remaining b).result = .error f → effect.result = .error f) ∧
        ((versionsEnd source imageTypes remaining b).result = .ok .silent →
          effect.result = .error (.domain (.storeTimedOut "fetch_latest_active_versions" rules.timeout))) ∧
        ∀ rows, (versionsEnd source imageTypes remaining b).result = .ok (.answered rows) →
          (∃ versions, effect.result = .ok versions) ∨
            ∃ missing corrupt, effect.result = .error (.domain (.unresolved missing corrupt))

/-- The store calls of a batch and its end, for whatever the stores come to. -/
structure InTurn (source : Source σ) (rules : Rules) (imageTypes : List String) (strategy : Strategy) (b : Backing σ)
    (effect : Effect (Backing σ) Versions) : Prop where
  nothing : imageTypes = [] → Called b rules [] b.store effect ∧ effect.result = .ok []
  /-- The plans are called for once and first, and at most one more call is made. -/
  once : imageTypes ≠ [] → ∃ later, effect.state.made = b.made ++ .activePlans (Names.ordered imageTypes) :: later ∧
    (later = [] ∨ ∃ remaining, later = [.latestActive remaining])
  failed : imageTypes ≠ [] → ∀ f, (plansEnd source imageTypes b).result = .error f →
    Called b rules [.activePlans (Names.ordered imageTypes)] (plansEnd source imageTypes b).state effect ∧
      effect.result = .error f
  silent : imageTypes ≠ [] → (plansEnd source imageTypes b).result = .ok .silent →
    Called b rules [.activePlans (Names.ordered imageTypes)] (plansEnd source imageTypes b).state effect ∧
      effect.result = .error (.domain (.storeTimedOut "fetch_rampup_plans" rules.timeout))
  answered : imageTypes ≠ [] → ∀ plans, (plansEnd source imageTypes b).result = .ok (.answered plans) →
    GoesOn source rules imageTypes b (outcomeIn strategy plans (Names.ordered imageTypes) b.generator) effect
  /-- No types are named as without a version before both stores have answered, unless a store says so itself. -/
  unresolved : ∀ f, effect.result = .error (.domain f) → f.kind = .aggregateResolution →
    (plansEnd source imageTypes b).result = .error (.domain f) ∨
      ∃ plans remaining, (plansEnd source imageTypes b).result = .ok (.answered plans) ∧
        effect.state.made = b.made ++ [.activePlans (Names.ordered imageTypes), .latestActive remaining] ∧
          ((versionsEnd source imageTypes remaining b).result = .error (.domain f) ∨
            ∃ rows, (versionsEnd source imageTypes remaining b).result = .ok (.answered rows))

theorem goesOn_resolveAll (hrange : strategy.InRange b.generator) (htime : rules.timeout.isOver = false)
    (hne : imageTypes ≠ []) {plans : PlanAnswer}
    (h : (plansEnd source imageTypes b).result = .ok (.answered plans)) :
    GoesOn source rules imageTypes b (outcomeIn strategy plans (Names.ordered imageTypes) b.generator)
      ((resolveAll source rules imageTypes (some strategy)).run b) where
  corrupt hcorrupt := by
    obtain ⟨imageType, reason, hfailure⟩ := exists_failure_of_corrupt hrange plans hcorrupt
    obtain ⟨hresult, hcalled⟩ := run_resolveAll_of_corrupt htime hne h hfailure
    exact ⟨hcalled, imageType, reason, hresult⟩
  planned hsound hall := by
    have hnone := (failure?_eq_none_iff hrange plans).mpr hsound
    have hnil : unplanned imageTypes (outcomeIn strategy plans (Names.ordered imageTypes) b.generator) = [] :=
      List.eq_nil_iff_forall_not_mem.mpr fun imageType hmem =>
        hall imageType (mem_unplanned.mp hmem).1 (mem_unplanned.mp hmem).2
    exact (run_resolveAll_of_planned htime hne h rfl hnone hnil).symm
  unplanned hsound := by
    rintro ⟨imageType, hmem, hversion⟩
    have hnone := (failure?_eq_none_iff hrange plans).mpr hsound
    have hsome := List.ne_nil_of_mem (mem_unplanned.mpr ⟨hmem, hversion⟩)
    obtain ⟨hfailed, hanswered, hcalled⟩ := run_resolveAll_of_unplanned htime hne h rfl hnone hsome
    refine ⟨unplanned imageTypes (outcomeIn strategy plans (Names.ordered imageTypes) b.generator),
      (Names.ascending_ordered imageTypes).filter _, fun _ => mem_unplanned, hcalled, fun f hf => ?_,
      fun hsilent => ?_, fun rows hrows => ?_⟩
    · exact hfailed f (by rw [hf]; rfl)
    · exact hfailed _ (by rw [hsilent]; rfl)
    · rw [hanswered rows (by rw [hrows]; rfl)]
      exact verdict_cases _ _ _

/-- A batch that goes on names types without a version only after both stores have answered. -/
theorem GoesOn.both_answered {outcome : String → Outcome} {effect : Effect (Backing σ) Versions}
    (h : GoesOn source rules imageTypes b outcome effect) {f : DomainFailure} (hresult : effect.result = .error (.domain f))
    (hkind : f.kind = .aggregateResolution) :
    ∃ remaining, effect.state.made = b.made ++ [.activePlans (Names.ordered imageTypes), .latestActive remaining] ∧
      ((versionsEnd source imageTypes remaining b).result = .error (.domain f) ∨
        ∃ rows, (versionsEnd source imageTypes remaining b).result = .ok (.answered rows)) := by
  by_cases hended : EndedByPlans rules imageTypes outcome
  · obtain ⟨-, imageType, reason, hcorrupt⟩ := h.corrupt hended
    cases hresult.symm.trans hcorrupt
    cases hkind
  by_cases hall : ∀ imageType ∈ imageTypes, (outcome imageType).version? ≠ none
  · obtain ⟨-, versions, hok⟩ := h.planned hended hall
    cases hresult.symm.trans hok
  push Not at hall
  obtain ⟨remaining, -, -, hcalled, hfailed, hsilent, hanswered⟩ := h.unplanned hended hall
  refine ⟨remaining, hcalled.made_eq, ?_⟩
  cases hend : (versionsEnd source imageTypes remaining b).result with
  | error g =>
    cases hresult.symm.trans (hfailed g hend)
    exact Or.inl rfl
  | ok reply =>
    cases reply with
    | answered rows => exact Or.inr ⟨rows, rfl⟩
    | silent =>
      cases hresult.symm.trans (hsilent hend)
      cases hkind

/-- However a batch goes on from its plans, at most one more call is made. -/
theorem GoesOn.once {outcome : String → Outcome} {effect : Effect (Backing σ) Versions}
    (h : GoesOn source rules imageTypes b outcome effect) :
    ∃ later, effect.state.made = b.made ++ .activePlans (Names.ordered imageTypes) :: later ∧
      (later = [] ∨ ∃ remaining, later = [.latestActive remaining]) := by
  by_cases hended : EndedByPlans rules imageTypes outcome
  · exact ⟨[], (h.corrupt hended).1.made_eq, Or.inl rfl⟩
  by_cases hall : ∀ imageType ∈ imageTypes, (outcome imageType).version? ≠ none
  · exact ⟨[], (h.planned hended hall).1.made_eq, Or.inl rfl⟩
  push Not at hall
  obtain ⟨remaining, -, -, hcalled, -⟩ := h.unplanned hended hall
  exact ⟨[.latestActive remaining], hcalled.made_eq, Or.inr ⟨remaining, rfl⟩⟩

theorem inTurn_nil (met : Source σ) :
    InTurn met rules [] strategy b ((resolveAll source rules [] (some strategy)).run b) where
  nothing _ := by
    rw [run_resolveAll_nil]
    refine ⟨⟨(List.append_nil _).symm, ?_, rfl⟩, rfl⟩
    rw [ite_self, List.append_nil]
  once hne := absurd rfl hne
  failed hne := absurd rfl hne
  silent hne := absurd rfl hne
  answered hne := absurd rfl hne
  unresolved f hf := by
    rw [run_resolveAll_nil] at hf
    cases hf

/-- Without time the plans are called for all the same, and the batch ends. -/
theorem inTurn_of_over (htime : rules.timeout.isOver = true) (hne : imageTypes ≠ []) :
    InTurn source.silenced rules imageTypes strategy b ((resolveAll source rules imageTypes (some strategy)).run b) := by
  obtain ⟨hresult, hcalled⟩ := @run_resolveAll_of_over _ source rules imageTypes strategy b htime hne
  exact {
    nothing := fun hnil => absurd hnil hne
    once := fun _ => ⟨[], hcalled.made_eq, Or.inl rfl⟩
    failed := fun _ f hf => nomatch hf
    silent := fun _ _ => ⟨hcalled, hresult⟩
    answered := fun _ plans hplans => nomatch hplans
    unresolved := fun f hf hkind => by
      cases hf.symm.trans hresult
      cases hkind }

theorem inTurn_of_inTime (hrange : strategy.InRange b.generator) (htime : rules.timeout.isOver = false)
    (hne : imageTypes ≠ []) :
    InTurn source rules imageTypes strategy b ((resolveAll source rules imageTypes (some strategy)).run b) where
  nothing hnil := absurd hnil hne
  once _ := by
    cases hplans : (plansEnd source imageTypes b).result with
    | error f => exact ⟨[], (run_resolveAll_of_plans_failed htime hne (by rw [hplans]; rfl)).2.made_eq, Or.inl rfl⟩
    | ok reply =>
      cases reply with
      | silent => exact ⟨[], (run_resolveAll_of_plans_failed htime hne (by rw [hplans]; rfl)).2.made_eq, Or.inl rfl⟩
      | answered plans => exact (goesOn_resolveAll hrange htime hne hplans).once
  failed _ f hf := (run_resolveAll_of_plans_failed htime hne (by rw [hf]; rfl)).symm
  silent _ hsilent := (run_resolveAll_of_plans_failed htime hne (by rw [hsilent]; rfl)).symm
  answered _ plans hplans := goesOn_resolveAll hrange htime hne hplans
  unresolved f hresult hkind := by
    cases hplans : (plansEnd source imageTypes b).result with
    | error g =>
      cases hresult.symm.trans (run_resolveAll_of_plans_failed htime hne (by rw [hplans]; rfl)).1
      exact Or.inl rfl
    | ok reply =>
      cases reply with
      | silent =>
        cases hresult.symm.trans (run_resolveAll_of_plans_failed htime hne (by rw [hplans]; rfl)).1
        cases hkind
      | answered plans =>
        obtain ⟨remaining, hboth⟩ := (goesOn_resolveAll hrange htime hne hplans).both_answered hresult hkind
        exact Or.inr ⟨plans, remaining, rfl, hboth⟩

/-- For an empty request no store is called. Else the plans are fetched once, for exactly the requested types;
    then the active versions at most once, for exactly the types without a version from a plan, and only if
    there are such types and the plans did not end the batch. What a store fails with ends the batch as it
    is, and so does its silence as a timeout; a batch names types without a version only if both stores
    have answered. -/
theorem stores_are_called_in_turn (source : Source σ) (rules : Rules) (imageTypes : List String) {strategy : Strategy}
    {b : Backing σ} (hrange : strategy.InRange b.generator) :
    InTurn (source.within rules.timeout) rules imageTypes strategy b
      ((resolveAll source rules imageTypes (some strategy)).run b) := by
  by_cases hne : imageTypes = []
  · subst hne
    exact inTurn_nil _
  cases htime : rules.timeout.isOver with
  | true =>
    rw [Source.within_of_over htime]
    exact inTurn_of_over htime hne
  | false =>
    rw [Source.within_of_inTime htime]
    exact inTurn_of_inTime hrange htime hne

/-- Plans for every request, and no word from the store of versions. -/
def mutedSource : Source Unit where
  activePlans _ := pure (.answered samplePlans)
  latestActive _ := pure .silent
  typeNames? := none

/-- The plans are called for even where there is no time for the call. -/
theorem stores_are_called_in_turn_sample :
    let batch := fun timeout =>
      (resolveAll mutedSource ⟨false, timeout⟩ ["spark", "hive"] (some (.assigned fun _ => 41))).run (.start () ⟨[], 1⟩)
    (batch (.whole 5)).state.made = [.activePlans ["hive", "spark"], .latestActive ["hive"]] ∧
      (batch (.whole 5)).result = .error (.domain (.storeTimedOut "fetch_latest_active_versions" (.whole 5))) ∧
      (batch (.whole 0)).state.made = [.activePlans ["hive", "spark"]] ∧
      (batch (.whole 0)).result = .error (.domain (.storeTimedOut "fetch_rampup_plans" (.whole 0))) := by
  intro batch
  have hinTurn : ∀ timeout, InTurn (mutedSource.within timeout) ⟨false, timeout⟩ ["spark", "hive"]
      (.assigned fun _ => 41) (.start () ⟨[], 1⟩) (batch timeout) :=
    fun timeout => stores_are_called_in_turn mutedSource ⟨false, timeout⟩ ["spark", "hive"] fun _ => rfl
  have hordered : Names.ordered ["spark", "hive"] = ["hive", "spark"] := by
    refine (Names.ascending_ordered _).eq_of_mem_iff (by decide_cbv) fun name => ?_
    rw [Names.mem_ordered]
    simp [or_comm]
  obtain ⟨remaining, hascending, hmem, hcalled, -, hsilent, -⟩ :=
    ((hinTurn (.whole 5)).answered (by decide) samplePlans rfl).unplanned (fun h => by cases h.1)
      ⟨"hive", by decide, rfl⟩
  have hremaining : remaining = ["hive"] := by
    refine hascending.eq_of_mem_iff (by decide_cbv) fun name => ?_
    rw [hmem]
    have hspark : (outcomeIn (.assigned fun _ => 41) samplePlans (Names.ordered ["spark", "hive"]) ⟨[], 1⟩
        "spark").version? ≠ none := by
      rw [hordered]
      decide_cbv
    constructor
    · rintro ⟨hname, hversion⟩
      rcases List.mem_cons.mp hname with rfl | hname
      · exact absurd hversion hspark
      · exact hname
    · intro hname
      obtain rfl := List.mem_singleton.mp hname
      exact ⟨by decide, rfl⟩
  subst hremaining
  obtain ⟨hcalledOnce, htimedOut⟩ := (hinTurn (.whole 0)).silent (by decide) rfl
  refine ⟨?_, hsilent rfl, ?_, htimedOut⟩
  · rw [hcalled.made_eq, hordered]
    rfl
  · rw [hcalledOnce.made_eq, hordered]
    rfl

end

end ImageRollout
