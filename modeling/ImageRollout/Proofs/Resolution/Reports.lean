import ImageRollout.Proofs.Resolution.Calls

/-! What a batch reports of corrupt plans where its rules are lenient. Each type with a corrupt plan has one line
    that tells what is wrong with it. Then either a second line tells the active version that the type got
    instead, or the failure of the batch names it, and never both. No other type has such a line. -/

namespace ImageRollout

variable {σ : Type}

/-! ### Types with a corrupt plan -/

section

variable {imageTypes : List String} {outcome : String → Outcome} {rows : List ActiveVersion} {imageType version : String}

/-- The requested types with a corrupt plan, each with what is wrong with it. -/
def violations (imageTypes : List String) (outcome : String → Outcome) : List (String × Violation) :=
  (Names.ordered imageTypes).filterMap fun imageType =>
    (outcome imageType).violation?.map fun violation => (imageType, violation)

/-- The requested types with a corrupt plan and an active version, each with this version. -/
def replacements (imageTypes : List String) (outcome : String → Outcome) (rows : List ActiveVersion) : Versions :=
  ((violations imageTypes outcome).map Prod.fst).filterMap fun imageType =>
    (latest? rows imageType).map fun version => (imageType, version)

theorem keys_violations : (violations imageTypes outcome).map Prod.fst =
    (Names.ordered imageTypes).filter fun imageType => (outcome imageType).violation?.isSome :=
  Names.keys_filterMap _ _

theorem mem_violations {violation : Violation} :
    (imageType, violation) ∈ violations imageTypes outcome ↔
      imageType ∈ imageTypes ∧ (outcome imageType).violation? = some violation := by
  rw [violations, Names.mem_filterMap fun imageType => (outcome imageType).violation?, Names.mem_ordered]

theorem mem_keys_violations : imageType ∈ (violations imageTypes outcome).map Prod.fst ↔
    imageType ∈ imageTypes ∧ ∃ violation, (outcome imageType).violation? = some violation := by
  rw [keys_violations, List.mem_filter, Names.mem_ordered, Option.isSome_iff_exists]

theorem ascending_violations : Names.Ascending ((violations imageTypes outcome).map Prod.fst) := by
  rw [keys_violations]
  exact (Names.ascending_ordered imageTypes).filter _

theorem mem_replacements : (imageType, version) ∈ replacements imageTypes outcome rows ↔
    imageType ∈ (violations imageTypes outcome).map Prod.fst ∧ LastRow rows imageType version := by
  rw [replacements, Names.mem_filterMap (latest? rows), latest?_eq_some_iff]

theorem keys_replacements : (replacements imageTypes outcome rows).map Prod.fst =
    ((violations imageTypes outcome).map Prod.fst).filter fun imageType => (latest? rows imageType).isSome :=
  Names.keys_filterMap _ _

/-- A corrupt plan gives no version. -/
theorem Outcome.version?_of_violation? {found : Outcome} {violation : Violation} (h : found.violation? = some violation) :
    found.version? = none := by
  cases found <;> first | rfl | cases h

/-- A type with a corrupt plan has no version but that of its last row. -/
theorem versionFor?_of_mem_violations (h : imageType ∈ (violations imageTypes outcome).map Prod.fst)
    (rows : List ActiveVersion) : versionFor? outcome rows imageType = latest? rows imageType := by
  obtain ⟨-, violation, hviolation⟩ := mem_keys_violations.mp h
  rw [versionFor?, Outcome.version?_of_violation? hviolation, Option.none_or]

/-- A plan that passes the check is not found corrupt, whatever the number drawn. -/
theorem Valid.violation?_judge {entries : List Entry} (h : Valid entries) (draw : Int) :
    (judge entries draw).violation? = none := by
  cases hdraw : Draw.isValid draw with
  | true =>
    obtain ⟨e, -, -, hjudge⟩ := h.judge_eq hdraw
    rw [hjudge]
    rfl
  | false =>
    unfold judge
    rw [select_of_not_isValid hdraw]
    rfl

end

/-! ### The lines of a batch -/

/-- The lines of a level, in their order. -/
def linesAt (level : Level) (lines : List Event) : List Event :=
  lines.filter fun e => e.level = level

theorem linesAt_append (level : Level) (lines others : List Event) :
    linesAt level (lines ++ others) = linesAt level lines ++ linesAt level others :=
  List.filter_append _ _

theorem linesAt_eq_self {level : Level} {lines : List Event} (h : ∀ e ∈ lines, e.level = level) :
    linesAt level lines = lines :=
  List.filter_eq_self.mpr fun e he => decide_eq_true (h e he)

theorem linesAt_eq_nil {level : Level} {lines : List Event} (h : ∀ e ∈ lines, e.level ≠ level) :
    linesAt level lines = [] :=
  List.filter_eq_nil_iff.mpr fun e he => decide_eq_true_iff.not.mpr (h e he)

/-- The ends of a batch that comes to its verdict: versions, or the failure that names the types without one. With
    each of them go the line that closes the batch and the types that the failure says have a corrupt plan. -/
inductive Ended : Except Failure Versions → List Event → List String → Prop where
  | versions (versions : Versions) : Ended (.ok versions) [] []
  | unresolved (missing corrupt : List String) :
      Ended (.error (.domain (.unresolved missing corrupt))) [.unresolved missing] corrupt

theorem Ended.eq_within {requested corrupt : List String} {p : String → Bool} {versions : Versions} {closing : List Event}
    {failed : List String}
    (h : Ended (if (requested.filter p).isEmpty then .ok versions
      else .error (.domain (.unresolved (requested.filter p) (Names.within corrupt (requested.filter p))))) closing failed) :
    failed = Names.within corrupt (requested.filter p) := by
  split at h
  · next hempty =>
    cases h
    rw [List.isEmpty_iff.mp hempty]
    simp [Names.within]
  · cases h
    rfl

theorem Ended.level_closing {result : Except Failure Versions} {closing : List Event} {failed : List String}
    (h : Ended result closing failed) {e : Event} (he : e ∈ closing) : e.level = .error := by
  cases h with
  | versions versions => cases he
  | unresolved missing corrupt =>
    obtain rfl := List.mem_singleton.mp he
    rfl

section

variable {source : Source σ} {rules : Rules} {requested imageTypes : List String} {strategy : Strategy} {b : Backing σ}
  {outcome : String → Outcome} {closing : List Event} {failed : List String}

/-- The lines of a batch after the survey: those of the version store, one for each row that is used, one for each
    corrupt plan that a row makes up for, and the closing one. -/
theorem events_settle {findings : Findings} {used : List ActiveVersion}
    (hrows : ((fallbacks source rules (Names.without requested (findings.planned.map Prod.fst))).run b).result = .ok used)
    (hends : Ended ((settle source rules requested findings).run b).result closing failed) :
    ((settle source rules requested findings).run b).events =
      ((fallbacks source rules (Names.without requested (findings.planned.map Prod.fst))).run b).events ++
        ((findings.corrupt.filterMap fun imageType =>
          (latest? used imageType).map fun version => .fellBack imageType version) ++ closing) := by
  rw [result_settle_of_rows hrows] at hends
  unfold verdict at hends
  unfold settle
  dsimp only at hends ⊢
  rw [Action.run_bind_ok hrows, Action.run_report_bind]
  dsimp only
  split at hends
  · next hempty =>
    cases hends
    rw [if_pos hempty]
    rfl
  · next hempty =>
    cases hends
    rw [if_neg hempty]
    rfl

/-- What the store of plans reports itself in a batch. -/
def planLines (source : Source σ) (imageTypes : List String) (b : Backing σ) : List Event :=
  if imageTypes = [] then [] else (plansEnd source imageTypes b).events

/-- What the store of versions reports itself in a batch that asks for the remaining types. -/
def versionLines (source : Source σ) (imageTypes remaining : List String) (b : Backing σ) : List Event :=
  if remaining = [] then [] else (versionsEnd source imageTypes remaining b).events

/-- What a batch reports when it has its plans. -/
def surveyLines (imageTypes : List String) (outcome : String → Outcome) (plans : PlanAnswer) : List Event :=
  if imageTypes = [] then []
  else .plansFound (Names.within (Names.ordered imageTypes) (plans.map Prod.fst)) ::
    (Findings.of (Names.ordered imageTypes) outcome).events

/-- What a batch reports when it has the rows that it uses. -/
def rowLines (imageTypes : List String) (outcome : String → Outcome) (rows : Option (List ActiveVersion)) : List Event :=
  ((usedRows (unplanned imageTypes outcome) rows).map fun row => .latestUsed row.imageType row.version) ++
    (replacements imageTypes outcome (rows.getD [])).map fun replacement => .fellBack replacement.1 replacement.2

theorem errors_surveyLines (plans : PlanAnswer) :
    linesAt .error (surveyLines imageTypes outcome plans) =
      (violations imageTypes outcome).map fun found => .violated found.1 found.2 := by
  unfold surveyLines
  split
  · next hnil =>
    subst hnil
    rw [violations, Names.ordered_nil]
    rfl
  · rw [linesAt, List.filter_cons_of_neg Bool.false_ne_true, Findings.events, Findings.of, violations, List.filterMap_map,
      List.filter_filterMap, List.map_filterMap]
    refine List.filterMap_congr fun imageType _ => ?_
    cases houtcome : outcome imageType <;> simp [houtcome, Outcome.event?, Outcome.violation?, Event.level]

theorem warnings_surveyLines (plans : PlanAnswer) : linesAt .warning (surveyLines imageTypes outcome plans) = [] := by
  refine linesAt_eq_nil fun e he => ?_
  unfold surveyLines at he
  split at he
  · cases he
  · rcases List.mem_cons.mp he with rfl | he
    · exact nofun
    · obtain ⟨⟨imageType, found⟩, -, hevent⟩ := List.mem_filterMap.mp he
      cases found <;> cases hevent <;> exact nofun

theorem errors_rowLines (rows : Option (List ActiveVersion)) : linesAt .error (rowLines imageTypes outcome rows) = [] := by
  refine linesAt_eq_nil fun e he => ?_
  rcases List.mem_append.mp he with he | he <;> obtain ⟨_, -, rfl⟩ := List.mem_map.mp he <;> exact nofun

theorem warnings_rowLines (rows : Option (List ActiveVersion)) :
    linesAt .warning (rowLines imageTypes outcome rows) =
      (replacements imageTypes outcome (rows.getD [])).map fun replacement => .fellBack replacement.1 replacement.2 := by
  unfold rowLines
  rw [linesAt_append, linesAt_eq_nil, linesAt_eq_self, List.nil_append]
  · intro e he
    obtain ⟨_, -, rfl⟩ := List.mem_map.mp he
    rfl
  · intro e he
    obtain ⟨_, -, rfl⟩ := List.mem_map.mp he
    exact nofun

/-- A type with a corrupt plan is among those that rows are fetched for. -/
theorem mem_unplanned_of_mem_violations {imageType : String} (h : imageType ∈ (violations imageTypes outcome).map Prod.fst) :
    imageType ∈ unplanned imageTypes outcome := by
  obtain ⟨hmem, violation, hviolation⟩ := mem_keys_violations.mp h
  exact mem_unplanned.mpr ⟨hmem, Outcome.version?_of_violation? hviolation⟩

theorem filterMap_corrupt (rows : Option (List ActiveVersion)) :
    ((Findings.of (Names.ordered imageTypes) outcome).corrupt.filterMap fun imageType =>
        (latest? (usedRows (unplanned imageTypes outcome) rows) imageType).map fun version => Event.fellBack imageType version) =
      (replacements imageTypes outcome (rows.getD [])).map fun replacement => .fellBack replacement.1 replacement.2 := by
  rw [Findings.corrupt_of, ← keys_violations, replacements, List.map_filterMap]
  refine List.filterMap_congr fun imageType hmem => ?_
  rw [latest?_usedRows, if_pos (mem_unplanned_of_mem_violations hmem), Option.map_map]
  rfl

/-- Where rules are lenient only a misuse ends the survey. -/
theorem Outcome.failure?_lenient {found : Outcome} {imageType : String} {f : Failure}
    (h : found.failure? false imageType = some f) : ∃ misuse, f = .misuse misuse := by
  cases found <;> cases h <;> exact ⟨_, rfl⟩

/-- A lenient batch that comes to its verdict had time, and no number that was drawn was out of range. -/
theorem Ended.goes_on (hne : imageTypes ≠ []) (hlenient : rules.strict = false) {plans : PlanAnswer}
    (hplans : (plansEnd source imageTypes b).result = .ok (.answered plans))
    (houtcome : outcome = outcomeIn strategy plans (Names.ordered imageTypes) b.generator)
    (hends : Ended ((resolveAll source rules imageTypes (some strategy)).run b).result closing failed) :
    rules.timeout.isOver = false ∧ ∀ imageType ∈ imageTypes, (outcome imageType).failure? rules.strict imageType = none := by
  rcases ends_early_or_goes_on hne hplans houtcome with hover | ⟨imageType, f, hfailure, hfailed⟩ | hgoes
  · rw [hover] at hends
    cases hends
  · rw [hlenient] at hfailure
    obtain ⟨misuse, rfl⟩ := Outcome.failure?_lenient hfailure
    rw [hfailed] at hends
    cases hends
  · exact hgoes

theorem run_fallbacks_told {remaining : List String} {rows : Option (List ActiveVersion)} (htime : rules.timeout.isOver = false)
    (h : remaining ≠ [] → ((source.latestActive remaining).run b.store).result = .ok (.answered rows)) :
    ((fallbacks source rules remaining).run b).result = .ok (usedRows remaining rows) ∧
      ((fallbacks source rules remaining).run b).events =
        (if remaining = [] then [] else ((source.latestActive remaining).run b.store).events) ++
          (usedRows remaining rows).map fun row => .latestUsed row.imageType row.version := by
  by_cases hnil : remaining = []
  · subst hnil
    rw [run_fallbacks_nil]
    simp [usedRows]
  · rw [run_fallbacks_of_answered htime hnil (h hnil), if_neg hnil]
    exact ⟨rfl, rfl⟩

/-- The lines of a batch that comes to its verdict, and the verdict. -/
theorem Ended.told (hlenient : rules.strict = false) {plans : PlanAnswer} {rows : Option (List ActiveVersion)}
    (hplans : imageTypes ≠ [] → (plansEnd source imageTypes b).result = .ok (.answered plans))
    (houtcome : outcome = outcomeIn strategy plans (Names.ordered imageTypes) b.generator)
    (hrows : ∀ remaining, remaining = unplanned imageTypes outcome → remaining ≠ [] →
      (versionsEnd source imageTypes remaining b).result = .ok (.answered rows))
    (hends : Ended ((resolveAll source rules imageTypes (some strategy)).run b).result closing failed) :
    ((resolveAll source rules imageTypes (some strategy)).run b).events =
        planLines source imageTypes b ++ surveyLines imageTypes outcome plans ++
          (versionLines source imageTypes (unplanned imageTypes outcome) b ++ (rowLines imageTypes outcome rows ++ closing)) ∧
      ((resolveAll source rules imageTypes (some strategy)).run b).result =
        verdict (Names.ordered imageTypes) (Findings.of (Names.ordered imageTypes) outcome)
          (usedRows (unplanned imageTypes outcome) rows) := by
  by_cases hne : imageTypes = []
  · subst hne
    have hnil : unplanned [] outcome = [] := by simp [unplanned]
    rw [run_resolveAll_nil] at hends ⊢
    cases hends
    rw [hnil, Names.ordered_nil]
    simp [planLines, surveyLines, versionLines, rowLines, hnil, usedRows, replacements, violations, verdict]
  · obtain ⟨htime, hnone⟩ := hends.goes_on hne hlenient (hplans hne) houtcome
    have hremaining : Names.without (Names.ordered imageTypes)
        ((Findings.of (Names.ordered imageTypes) outcome).planned.map Prod.fst) = unplanned imageTypes outcome :=
      Findings.without_planned _ _
    rw [run_resolveAll_of_no_failure htime hne (hplans hne) houtcome hnone] at hends ⊢
    dsimp only at hends ⊢
    generalize hc : ({ b.withPlans source imageTypes with
      generator := drawnPast strategy plans (Names.ordered imageTypes) b.generator
      asks := b.asks ++ (Findings.of (Names.ordered imageTypes) outcome).asks } : Backing σ) = c at hends ⊢
    have hstore : c.store = (plansEnd source imageTypes b).state := by
      rw [← hc]
      rfl
    obtain ⟨hused, hlines⟩ := run_fallbacks_told (b := c) htime fun hsome => by
      rw [hstore]
      exact hrows _ rfl hsome
    rw [← hremaining] at hused hlines
    constructor
    · rw [events_settle hused hends, hlines, hremaining, filterMap_corrupt]
      unfold planLines surveyLines versionLines rowLines versionsEnd
      rw [if_neg hne, if_neg hne, hstore]
      simp [plansEnd]
    · rw [result_settle_of_rows hused, hremaining]

end

/-! ### The account of corrupt plans -/

/-- How a batch accounts for corrupt plans by its own lines and by its end. The types with a corrupt plan are
    `found`, each with what is wrong with it; `fallen` are those that got an active version instead, each with this
    version; `failed` are those that the failure of the batch says have a corrupt plan. -/
structure Accounted (imageTypes : List String) (outcome : String → Outcome) (rows : List ActiveVersion)
    (result : Except Failure Versions) (lines closing : List Event) (found : List (String × Violation)) (fallen : Versions)
    (failed : List String) : Prop where
  errors : linesAt .error lines = (found.map fun finding => .violated finding.1 finding.2) ++ closing
  warnings : linesAt .warning lines = fallen.map fun replacement => .fellBack replacement.1 replacement.2
  found_ascending : Names.Ascending (found.map Prod.fst)
  mem_found : ∀ imageType violation, (imageType, violation) ∈ found ↔
    imageType ∈ imageTypes ∧ (outcome imageType).violation? = some violation
  fallen_ascending : Names.Ascending (fallen.map Prod.fst)
  recorded : ∀ imageType version, (imageType, version) ∈ fallen →
    LastRow rows imageType version ∧ ∀ versions, result = .ok versions → versions.lookup imageType = some version
  failed_ascending : Names.Ascending failed
  mem_failed : ∀ imageType, imageType ∈ failed ↔
    imageType ∈ found.map Prod.fst ∧ ∀ row ∈ rows, row.imageType ≠ imageType
  details : ∀ f, result = .error (.domain f) →
    f.detailMembers.lookup "integrity_failures" = if failed = [] then none else some (.ofTexts failed)
  accounted : ∀ imageType, imageType ∈ found.map Prod.fst ↔ imageType ∈ fallen.map Prod.fst ∨ imageType ∈ failed
  apart : ∀ imageType ∈ fallen.map Prod.fst, imageType ∉ failed

theorem Ended.details {result : Except Failure Versions} {closing : List Event} {failed : List String}
    (h : Ended result closing failed) (hascending : Names.Ascending failed) {f : DomainFailure}
    (hf : result = .error (.domain f)) :
    f.detailMembers.lookup "integrity_failures" = if failed = [] then none else some (.ofTexts failed) := by
  cases h with
  | versions versions => cases hf
  | unresolved missing corrupt =>
    cases hf
    cases failed with
    | nil => rfl
    | cons first rest =>
      show some (Json.ofTexts (Names.ordered (first :: rest))) = some (.ofTexts (first :: rest))
      rw [hascending.ordered_eq]

section

variable {source : Source σ} {rules : Rules} {imageTypes : List String} {strategy : Strategy} {b : Backing σ}
  {plans : PlanAnswer} {rows : Option (List ActiveVersion)} {outcome : String → Outcome} {closing : List Event}
  {failed : List String}

theorem Ended.accounted {result : Except Failure Versions} (hends : Ended result closing failed)
    (hresult : result = verdict (Names.ordered imageTypes) (Findings.of (Names.ordered imageTypes) outcome)
      (usedRows (unplanned imageTypes outcome) rows)) (plans : PlanAnswer) :
    Accounted imageTypes outcome (rows.getD []) result
      (surveyLines imageTypes outcome plans ++ (rowLines imageTypes outcome rows ++ closing)) closing
      (violations imageTypes outcome) (replacements imageTypes outcome (rows.getD [])) failed := by
  have hverdict := hresult.trans (verdict_map (Names.ordered imageTypes) outcome rows)
  have hwithin : failed = Names.within ((violations imageTypes outcome).map Prod.fst) ((Names.ordered imageTypes).filter
      fun imageType => (versionFor? outcome (rows.getD []) imageType).isNone) := by
    have hverdictEnds := hends
    rw [hverdict] at hverdictEnds
    rw [keys_violations]
    exact hverdictEnds.eq_within
  have hfailed : ∀ imageType, imageType ∈ failed ↔ imageType ∈ (violations imageTypes outcome).map Prod.fst ∧
      latest? (rows.getD []) imageType = none := by
    intro imageType
    rw [hwithin, Names.mem_within, List.mem_filter, Option.isNone_iff_eq_none]
    constructor
    · rintro ⟨hfound, -, hnone⟩
      exact ⟨hfound, (versionFor?_of_mem_violations hfound _).symm.trans hnone⟩
    · rintro ⟨hfound, hnone⟩
      have hmem := Names.mem_ordered.mpr (mem_keys_violations.mp hfound).1
      exact ⟨hfound, hmem, (versionFor?_of_mem_violations hfound _).trans hnone⟩
  have hascending : Names.Ascending failed := by
    rw [hwithin]
    exact ascending_violations.within _
  exact {
    errors := by
      rw [linesAt_append, linesAt_append, errors_surveyLines, errors_rowLines, List.nil_append,
        linesAt_eq_self fun _ => hends.level_closing]
    warnings := by
      rw [linesAt_append, linesAt_append, warnings_surveyLines, warnings_rowLines, List.nil_append,
        linesAt_eq_nil fun e he heq => ?_, List.append_nil]
      cases (hends.level_closing he).symm.trans heq
    found_ascending := ascending_violations
    mem_found := fun _ _ => mem_violations
    fallen_ascending := by
      rw [keys_replacements]
      exact ascending_violations.filter _
    recorded := fun imageType version hmem => by
      obtain ⟨hfound, hlast⟩ := mem_replacements.mp hmem
      refine ⟨hlast, fun versions hversions => ?_⟩
      have hmem := Names.mem_ordered.mpr (mem_keys_violations.mp hfound).1
      have hlookup := lookup_of_verdict (hresult.symm.trans hversions) hmem
      rw [hlookup, unplanned, settled?_of hmem, versionFor?_of_mem_violations hfound]
      exact latest?_eq_some_iff.mpr hlast
    failed_ascending := hascending
    mem_failed := fun imageType => by rw [hfailed, latest?_eq_none_iff]
    details := fun f => hends.details hascending
    accounted := fun imageType => by
      rw [keys_replacements, List.mem_filter, hfailed, Option.isSome_iff_ne_none, ← and_or_left]
      exact (and_iff_left (ne_or_eq _ _)).symm
    apart := fun imageType hmem hnone => by
      rw [keys_replacements, List.mem_filter, Option.isSome_iff_ne_none] at hmem
      exact hmem.2 ((hfailed imageType).mp hnone).2 }

/-- Neither a plan that passes the check nor the lack of one is found corrupt. -/
theorem violation?_outcomeIn_of_sound {imageType : String}
    (h : ∀ plan, plans.plan? imageType = some plan → checkPlan plan.entries = .ok ()) (requested : List String)
    (g : Generator) : (outcomeIn strategy plans requested g imageType).violation? = none := by
  cases hplan : plans.plan? imageType with
  | none =>
    rw [outcomeIn_of_no_plan strategy hplan]
    rfl
  | some plan =>
    unfold outcomeIn
    rw [hplan, resolve_eq_judge]
    exact (checkPlan_eq_ok_iff.mp (h plan hplan)).violation?_judge _

/-- A lenient batch that comes to versions, or to the failure that names the types without one, accounts for every
    corrupt plan, whatever the stores answer. A type without a plan or with one that passes the check has no part
    in the account. -/
theorem corrupt_plans_are_accounted_for (hlenient : rules.strict = false)
    (hplans : imageTypes ≠ [] → (plansEnd source imageTypes b).result = .ok (.answered plans))
    (hrows : ∀ remaining,
      remaining = unplanned imageTypes (outcomeIn strategy plans (Names.ordered imageTypes) b.generator) → remaining ≠ [] →
        (versionsEnd source imageTypes remaining b).result = .ok (.answered rows))
    (hends : Ended ((resolveAll source rules imageTypes (some strategy)).run b).result closing failed) :
    let effect := (resolveAll source rules imageTypes (some strategy)).run b
    let outcome := outcomeIn strategy plans (Names.ordered imageTypes) b.generator
    ∃ before after found fallen,
      effect.events = planLines source imageTypes b ++ before ++
        (versionLines source imageTypes (unplanned imageTypes outcome) b ++ after) ∧
      Accounted imageTypes outcome (rows.getD []) effect.result (before ++ after) closing found fallen failed ∧
      ∀ imageType, (∀ plan, plans.plan? imageType = some plan → checkPlan plan.entries = .ok ()) →
        imageType ∉ found.map Prod.fst ∧ imageType ∉ fallen.map Prod.fst ∧ imageType ∉ failed := by
  intro effect outcome
  obtain ⟨hevents, hresult⟩ := hends.told hlenient hplans rfl hrows
  have haccounted := hends.accounted hresult plans
  refine ⟨_, _, _, _, hevents, haccounted, fun imageType hsound => ?_⟩
  have hfound : imageType ∉ (violations imageTypes outcome).map Prod.fst := fun hmem => by
    obtain ⟨-, violation, hviolation⟩ := mem_keys_violations.mp hmem
    cases (violation?_outcomeIn_of_sound hsound _ _).symm.trans hviolation
  exact ⟨hfound, fun hmem => hfound ((haccounted.accounted imageType).mpr (Or.inl hmem)),
    fun hmem => hfound ((haccounted.accounted imageType).mpr (Or.inr hmem))⟩

end

/-- Two corrupt plans. -/
def corruptPlans : PlanAnswer :=
  [("spark", some uncheckedPlan), ("pig", some uncheckedPlan)]

theorem corrupt_plans_are_accounted_for_sample :
    let effect := (resolveAll (Source.constant corruptPlans (some sampleRows)) ⟨false, .whole 5⟩ ["spark", "pig", "hive"]
      (some (.assigned fun _ => 30))).run (.start () ⟨[], 1⟩)
    .fellBack "spark" "0.9" ∈ effect.events ∧
      ∃ missing corrupt, effect.result = .error (.domain (.unresolved missing corrupt)) ∧ "pig" ∈ corrupt := by
  intro effect
  have hjudged : judge uncheckedPlan.entries 30 = .violated 30 (.unstable "1.1") := by decide_cbv
  have hspark : outcomeIn (.assigned fun _ => 30) corruptPlans (Names.ordered ["spark", "pig", "hive"]) ⟨[], 1⟩ "spark" =
      .violated 30 (.unstable "1.1") := hjudged
  have hpig : outcomeIn (.assigned fun _ => 30) corruptPlans (Names.ordered ["spark", "pig", "hive"]) ⟨[], 1⟩ "pig" =
      .violated 30 (.unstable "1.1") := hjudged
  have hrows : ∀ row ∈ sampleRows, row.imageType ≠ "pig" := by decide
  have hanswered : Answered (Source.constant corruptPlans (some sampleRows)) ⟨false, .whole 5⟩ ["spark", "pig", "hive"]
      (.assigned fun _ => 30) (.start () ⟨[], 1⟩) corruptPlans (some sampleRows) :=
    ⟨rfl, rfl, fun _ _ _ => rfl⟩
  have hnone := (@failure?_eq_none_iff _ ⟨false, .whole 5⟩ ["spark", "pig", "hive"] (.assigned fun _ => 30)
    (.start () ⟨[], 1⟩) (fun _ => rfl) corruptPlans).mpr fun h => Bool.false_ne_true h.1
  have hversion := Outcome.version?_of_violation? (congrArg Outcome.violation? hpig)
  obtain ⟨missing, corrupt, hresult, -⟩ := exists_unresolved_of_uncovered hanswered rfl hnone (by decide)
    (versionFor?_eq_none_iff.mpr ⟨hversion, hrows⟩)
  have hends : Ended effect.result [.unresolved missing] corrupt := by
    have heffect : effect.result = .error (.domain (.unresolved missing corrupt)) := hresult
    rw [heffect]
    exact .unresolved missing corrupt
  obtain ⟨before, after, found, fallen, hevents, haccounted, -⟩ := @corrupt_plans_are_accounted_for _
    (Source.constant corruptPlans (some sampleRows)) ⟨false, .whole 5⟩ ["spark", "pig", "hive"] (.assigned fun _ => 30)
    (.start () ⟨[], 1⟩) corruptPlans (some sampleRows) [.unresolved missing] corrupt rfl (fun _ => rfl) (fun _ _ _ => rfl) hends
  have hfound : ∀ imageType ∈ ["spark", "pig"], imageType ∈ found.map Prod.fst := by
    intro imageType hmem
    refine List.mem_map_of_mem ((haccounted.mem_found imageType (.unstable "1.1")).mpr ?_)
    simp only [List.mem_cons, List.not_mem_nil, or_false] at hmem
    rcases hmem with rfl | rfl
    · exact ⟨by decide, congrArg Outcome.violation? hspark⟩
    · exact ⟨by decide, congrArg Outcome.violation? hpig⟩
  refine ⟨?_, missing, corrupt, hresult, (haccounted.mem_failed "pig").mpr ⟨hfound "pig" (by decide), hrows⟩⟩
  rcases (haccounted.accounted "spark").mp (hfound "spark" (by decide)) with hfallen | hfailed
  · obtain ⟨⟨_, version⟩, hmem, rfl⟩ := List.mem_map.mp hfallen
    obtain ⟨hlast, -⟩ := haccounted.recorded _ _ hmem
    have hversion : version = "0.9" := Option.some.inj ((latest?_eq_some_iff.mpr hlast).symm.trans rfl)
    have hline : .fellBack "spark" "0.9" ∈ linesAt .warning (before ++ after) := by
      rw [haccounted.warnings]
      exact List.mem_map.mpr ⟨_, hmem, congrArg _ hversion⟩
    have hbatch := (List.mem_filter.mp hline).1
    rw [hevents]
    simp only [List.mem_append] at hbatch ⊢
    tauto
  · obtain ⟨-, hnoRow⟩ := (haccounted.mem_failed "spark").mp hfailed
    exact absurd rfl (hnoRow ⟨"spark", "0.9"⟩ (by decide))

end ImageRollout
