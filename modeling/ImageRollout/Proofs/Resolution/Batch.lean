import Mathlib
import ImageRollout.Proofs.Action
import ImageRollout.Proofs.Resolution.Survey
import ImageRollout.Resolution.Batch

/-! What a batch comes to where the stores answer. A type gets the version that its plan gives, else
    that of the last row for it. If every requested type gets one, these are the result; else the batch
    fails and names the types that do not, and which of them have a corrupt plan. -/

namespace ImageRollout

variable {σ α : Type}

/-! ### Steps of a batch -/

/-- The state of resolution after a call that ran and left a store. -/
def Backing.afterCall (call : StoreCall) (store : σ) (b : Backing σ) : Backing σ :=
  { b with store, calls := b.calls ++ [call], made := b.made ++ [call] }

/-- The end of a call that nothing came of in time. -/
def giveUp (timeout : Seconds) (call : StoreCall) : Action (Backing σ) α := do
  Action.report [.storeTimedOut call.name timeout]
  Action.fail (.domain (.storeTimedOut call.name timeout))

/-- A call that there is time for is made and runs. What comes of it is up to the store. -/
theorem callStore_of_inTime {timeout : Seconds} (htime : timeout.isOver = false) (call : StoreCall)
    (answer : Action σ (Reply α)) :
    callStore timeout call answer =
      Action.change (fun b => b.afterCall call b.store) >>= fun _ => Backing.onStore answer >>= fun reply =>
        match reply with
        | .answered a => pure a
        | .silent => giveUp timeout call := by
  unfold callStore
  simp only [htime]
  rfl

/-- A call that there is no time for is made all the same. -/
theorem callStore_of_over {timeout : Seconds} (htime : timeout.isOver = true) (call : StoreCall)
    (answer : Action σ (Reply α)) :
    callStore timeout call answer =
      Action.change (fun b => { b with made := b.made ++ [call] }) >>= fun _ => giveUp timeout call := by
  unfold callStore
  simp only [htime]
  rfl

theorem run_callStore_of_answered {timeout : Seconds} {answer : Action σ (Reply α)} {b : Backing σ} {a : α}
    (htime : timeout.isOver = false) (h : (answer.run b.store).result = .ok (.answered a)) (call : StoreCall) :
    (callStore timeout call answer).run b =
      ⟨.ok a, (answer.run b.store).events, b.afterCall call (answer.run b.store).state⟩ := by
  have hstore : ((Backing.onStore answer).run (b.afterCall call b.store)).result = .ok (.answered a) := h
  rw [callStore_of_inTime htime, Action.run_change_bind, Action.run_bind_ok hstore]
  simp [Backing.onStore, Backing.afterCall]

theorem run_surveyed (strict : Bool) (strategy : Option Strategy) (answer : PlanAnswer) (imageTypes : List String)
    (b : Backing σ) :
    (surveyed strict strategy answer imageTypes).run b =
      let found := survey strict strategy answer imageTypes b.generator
      ⟨match found.1.failure? strict with
        | some failure => .error failure
        | none => .ok found.1, found.1.events, { b with generator := found.2, asks := b.asks ++ found.1.asks }⟩ := by
  unfold surveyed
  rw [Action.run_read_bind, Action.run_change_bind, Action.run_report_bind]
  cases h : (survey strict strategy answer imageTypes b.generator).1.failure? strict <;> simp [h]

theorem run_surveyed_of_no_failure {strict : Bool} {strategy : Strategy} {answer : PlanAnswer} {requested : List String}
    {b : Backing σ} (hascending : Names.Ascending requested) {outcome : String → Outcome}
    (houtcome : outcome = outcomeIn strategy answer requested b.generator)
    (hnone : ∀ imageType ∈ requested, (outcome imageType).failure? strict imageType = none) :
    (surveyed strict (some strategy) answer requested).run b =
      ⟨.ok (Findings.of requested outcome), (Findings.of requested outcome).events,
        { b with
          generator := drawnPast strategy answer requested b.generator
          asks := b.asks ++ (Findings.of requested outcome).asks }⟩ := by
  subst houtcome
  have hfailure := Findings.failure?_of requested (outcomeIn strategy answer requested b.generator) strict
  rw [List.findSome?_eq_none_iff.mpr hnone] at hfailure
  rw [run_surveyed, survey_of_no_failure hascending hnone]
  simp only [hfailure]

theorem result_surveyed_of_failure {strict : Bool} {strategy : Strategy} {answer : PlanAnswer}
    {before after : List String} {last : String} {b : Backing σ}
    (hascending : Names.Ascending (before ++ last :: after)) {outcome : String → Outcome}
    (houtcome : outcome = outcomeIn strategy answer (before ++ last :: after) b.generator)
    (hnone : ∀ imageType ∈ before, (outcome imageType).failure? strict imageType = none) {failure : Failure}
    (hlast : (outcome last).failure? strict last = some failure) :
    ((surveyed strict (some strategy) answer (before ++ last :: after)).run b).result = .error failure := by
  have hfailure : (Findings.of (before ++ [last]) outcome).failure? strict = some failure := by
    rw [Findings.failure?_of, List.findSome?_append, List.findSome?_eq_none_iff.mpr hnone]
    simp [hlast]
  subst houtcome
  rw [run_surveyed, survey_of_failure hascending hnone (hlast ▸ rfl)]
  simp only [hfailure]

/-- The rows that count are those for the types that were asked for. -/
def usedRows (remaining : List String) (rows : Option (List ActiveVersion)) : List ActiveVersion :=
  (rows.getD []).filter fun row => remaining.contains row.imageType

theorem run_fallbacks_nil (source : Source σ) (rules : Rules) (b : Backing σ) :
    (fallbacks source rules []).run b = ⟨.ok [], [], b⟩ := rfl

theorem run_fallbacks_of_answered {source : Source σ} {rules : Rules} {remaining : List String} {b : Backing σ}
    {rows : Option (List ActiveVersion)} (htime : rules.timeout.isOver = false) (hne : remaining ≠ [])
    (h : ((source.latestActive remaining).run b.store).result = .ok (.answered rows)) :
    (fallbacks source rules remaining).run b =
      ⟨.ok (usedRows remaining rows),
        ((source.latestActive remaining).run b.store).events ++
          (usedRows remaining rows).map fun row => .latestUsed row.imageType row.version,
        b.afterCall (.latestActive remaining) ((source.latestActive remaining).run b.store).state⟩ := by
  have hcall := run_callStore_of_answered htime h (.latestActive remaining)
  unfold fallbacks
  rw [ite_cond_eq_false _ _ (by simpa using hne), Action.run_bind_ok (by rw [hcall]), hcall, Action.run_report_bind]
  simp [usedRows]

/-- What a batch does after the survey. -/
def settle (source : Source σ) (rules : Rules) (requested : List String) (findings : Findings) :
    Action (Backing σ) Versions := do
  let planned := findings.planned
  let rows ← fallbacks source rules (Names.without requested (planned.map Prod.fst))
  Action.report (findings.corrupt.filterMap fun imageType =>
    (latest? rows imageType).map fun version => .fellBack imageType version)
  let unresolved := requested.filter fun imageType => (settled? planned rows imageType).isNone
  if unresolved.isEmpty then
    pure (requested.filterMap fun imageType =>
      (settled? planned rows imageType).map fun version => (imageType, version))
  else do
    Action.report [.unresolved unresolved]
    Action.fail (.domain (.unresolved unresolved (Names.within findings.corrupt unresolved)))

theorem resolveAll_eq (source : Source σ) (rules : Rules) {imageTypes : List String} (h : imageTypes ≠ [])
    (strategy : Option Strategy) :
    resolveAll source rules imageTypes strategy =
      callStore rules.timeout (.activePlans (Names.ordered imageTypes)) (source.activePlans (Names.ordered imageTypes)) >>=
        fun plans => Action.report [.plansFound (Names.within (Names.ordered imageTypes) (plans.map Prod.fst))] >>=
          fun _ => surveyed rules.strict strategy plans (Names.ordered imageTypes) >>=
            settle source rules (Names.ordered imageTypes) := by
  have hne : (Names.ordered imageTypes).isEmpty = false := by
    simpa [Names.ordered_eq_nil_iff] using h
  unfold resolveAll
  simp only [hne]
  rfl

/-- The state of a batch that has its plans. -/
def Backing.withPlans (source : Source σ) (imageTypes : List String) (b : Backing σ) : Backing σ :=
  b.afterCall (.activePlans (Names.ordered imageTypes)) ((source.activePlans (Names.ordered imageTypes)).run b.store).state

section

variable {source : Source σ} {rules : Rules} {imageTypes : List String} {b : Backing σ} {plans : PlanAnswer}

theorem run_resolveAll_of_answered (htime : rules.timeout.isOver = false) (hne : imageTypes ≠ [])
    (h : ((source.activePlans (Names.ordered imageTypes)).run b.store).result = .ok (.answered plans))
    (strategy : Option Strategy) :
    (resolveAll source rules imageTypes strategy).run b =
      let next := (surveyed rules.strict strategy plans (Names.ordered imageTypes) >>=
        settle source rules (Names.ordered imageTypes)).run (b.withPlans source imageTypes)
      { next with
        events := ((source.activePlans (Names.ordered imageTypes)).run b.store).events ++
          (.plansFound (Names.within (Names.ordered imageTypes) (plans.map Prod.fst)) :: next.events) } := by
  have hcall := run_callStore_of_answered htime h (.activePlans (Names.ordered imageTypes))
  rw [resolveAll_eq source rules hne, Action.run_bind_ok (by rw [hcall]), hcall, Action.run_report_bind]
  rfl

theorem run_resolveAll_of_no_failure (htime : rules.timeout.isOver = false) (hne : imageTypes ≠ [])
    (h : ((source.activePlans (Names.ordered imageTypes)).run b.store).result = .ok (.answered plans))
    {strategy : Strategy} {outcome : String → Outcome}
    (houtcome : outcome = outcomeIn strategy plans (Names.ordered imageTypes) b.generator)
    (hnone : ∀ imageType ∈ imageTypes, (outcome imageType).failure? rules.strict imageType = none) :
    (resolveAll source rules imageTypes (some strategy)).run b =
      let findings := Findings.of (Names.ordered imageTypes) outcome
      let next := (settle source rules (Names.ordered imageTypes) findings).run
        { b.withPlans source imageTypes with
          generator := drawnPast strategy plans (Names.ordered imageTypes) b.generator
          asks := b.asks ++ findings.asks }
      { next with
        events := ((source.activePlans (Names.ordered imageTypes)).run b.store).events ++
          (.plansFound (Names.within (Names.ordered imageTypes) (plans.map Prod.fst)) ::
            (findings.events ++ next.events)) } := by
  have hfound := run_surveyed_of_no_failure (b := b.withPlans source imageTypes) (Names.ascending_ordered imageTypes)
    houtcome fun imageType hmem => hnone imageType (Names.mem_ordered.mp hmem)
  rw [run_resolveAll_of_answered htime hne h, Action.run_bind_ok (by rw [hfound]), hfound]
  rfl

end

/-! ### The last row for a type -/

/-- The last row for an image type has a version. -/
def LastRow (rows : List ActiveVersion) (imageType version : String) : Prop :=
  ∃ before after, rows = before ++ ⟨imageType, version⟩ :: after ∧ ∀ row ∈ after, row.imageType ≠ imageType

theorem latest?_eq_some_iff {rows : List ActiveVersion} {imageType version : String} :
    latest? rows imageType = some version ↔ LastRow rows imageType version := by
  unfold latest?
  rw [Option.map_eq_some_iff]
  constructor
  · rintro ⟨row, hfind, rfl⟩
    obtain ⟨htype, after, before, hsplit, hafter⟩ := List.find?_eq_some_iff_append.mp hfind
    obtain rfl := of_decide_eq_true htype
    refine ⟨before.reverse, after.reverse, ?_, fun other hother => by simpa using hafter other (by simpa using hother)⟩
    rw [← List.reverse_reverse rows, hsplit]
    simp
  · rintro ⟨before, after, rfl, hafter⟩
    refine ⟨⟨imageType, version⟩, List.find?_eq_some_iff_append.mpr ⟨by simp, after.reverse, before.reverse, by simp, ?_⟩, rfl⟩
    intro other hother
    simpa using hafter other (by simpa using hother)

theorem latest?_eq_none_iff {rows : List ActiveVersion} {imageType : String} :
    latest? rows imageType = none ↔ ∀ row ∈ rows, row.imageType ≠ imageType := by
  simp [latest?]

theorem latest?_usedRows (remaining : List String) (rows : Option (List ActiveVersion)) (imageType : String) :
    latest? (usedRows remaining rows) imageType =
      if imageType ∈ remaining then latest? (rows.getD []) imageType else none := by
  unfold latest? usedRows
  rw [← List.filter_reverse, List.find?_filter]
  by_cases hmem : imageType ∈ remaining
  · rw [ite_cond_eq_true _ _ (eq_true hmem)]
    congr 2
    funext row
    by_cases htype : row.imageType = imageType <;> simp [htype, hmem]
  · rw [ite_cond_eq_false _ _ (eq_false hmem), Option.map_eq_none_iff, List.find?_eq_none]
    intro row _
    by_cases htype : row.imageType = imageType <;> simp [htype, hmem]

/-! ### The verdict -/

/-- The versions of the requested types, or the failure that names those without. -/
def verdict (requested : List String) (findings : Findings) (rows : List ActiveVersion) : Except Failure Versions :=
  let unresolved := requested.filter fun imageType => (settled? findings.planned rows imageType).isNone
  if unresolved.isEmpty then
    .ok (requested.filterMap fun imageType =>
      (settled? findings.planned rows imageType).map fun version => (imageType, version))
  else .error (.domain (.unresolved unresolved (Names.within findings.corrupt unresolved)))

theorem result_settle {source : Source σ} {rules : Rules} {requested : List String} {findings : Findings} {b : Backing σ}
    {rows : Option (List ActiveVersion)} {remaining : List String}
    (hremaining : Names.without requested (findings.planned.map Prod.fst) = remaining)
    (htime : rules.timeout.isOver = false)
    (h : remaining ≠ [] → ((source.latestActive remaining).run b.store).result = .ok (.answered rows)) :
    ((settle source rules requested findings).run b).result = verdict requested findings (usedRows remaining rows) := by
  have hrows : ((fallbacks source rules remaining).run b).result = .ok (usedRows remaining rows) := by
    by_cases hnil : remaining = []
    · subst hnil
      rw [run_fallbacks_nil]
      simp [usedRows]
    · rw [run_fallbacks_of_answered htime hnil (h hnil)]
  unfold settle verdict
  dsimp only
  rw [hremaining, Action.run_bind_ok hrows, Action.run_report_bind]
  dsimp only
  split <;> rfl

theorem state_settle_of_planned {source : Source σ} {rules : Rules} {requested : List String} {findings : Findings}
    (h : Names.without requested (findings.planned.map Prod.fst) = []) (b : Backing σ) :
    ((settle source rules requested findings).run b).state = b := by
  have hrows : ((fallbacks source rules []).run b).result = .ok [] := rfl
  unfold settle
  dsimp only
  rw [h, Action.run_bind_ok hrows, Action.run_report_bind]
  split <;> rfl

/-! ### The outcome of a batch -/

/-- A version for every requested type and for no other, that of its plan where there is one. -/
structure Complete (imageTypes : List String) (outcome : String → Outcome) (rows : List ActiveVersion)
    (versions : Versions) : Prop where
  ascending : Names.Ascending (versions.map Prod.fst)
  keys : ∀ imageType, imageType ∈ versions.map Prod.fst ↔ imageType ∈ imageTypes
  planned : ∀ imageType version, (imageType, version) ∈ versions →
    ∀ selected, (outcome imageType).version? = some selected → version = selected
  fallen : ∀ imageType version, (imageType, version) ∈ versions →
    (outcome imageType).version? = none → LastRow rows imageType version

/-- The requested types without any version, and those of them with a corrupt plan. -/
structure Incomplete (imageTypes : List String) (outcome : String → Outcome) (rows : List ActiveVersion)
    (missing corrupt : List String) : Prop where
  missing_ascending : Names.Ascending missing
  mem_missing : ∀ imageType, imageType ∈ missing ↔
    imageType ∈ imageTypes ∧ (outcome imageType).version? = none ∧ ∀ row ∈ rows, row.imageType ≠ imageType
  corrupt_ascending : Names.Ascending corrupt
  mem_corrupt : ∀ imageType, imageType ∈ corrupt ↔
    imageType ∈ missing ∧ ∃ violation, (outcome imageType).violation? = some violation

/-- The version that an image type gets for an outcome and rows. -/
def versionFor? (outcome : String → Outcome) (rows : List ActiveVersion) (imageType : String) : Option String :=
  (outcome imageType).version?.or (latest? rows imageType)

theorem versionFor?_isSome_iff {outcome : String → Outcome} {rows : List ActiveVersion} {imageType : String} :
    (versionFor? outcome rows imageType).isSome ↔
      (outcome imageType).version?.isSome ∨ ∃ row ∈ rows, row.imageType = imageType := by
  unfold versionFor?
  rw [Option.isSome_or, Bool.or_eq_true, Option.isSome_iff_ne_none (o := latest? rows imageType), ne_eq,
    latest?_eq_none_iff]
  simp

theorem versionFor?_eq_none_iff {outcome : String → Outcome} {rows : List ActiveVersion} {imageType : String} :
    versionFor? outcome rows imageType = none ↔
      (outcome imageType).version? = none ∧ ∀ row ∈ rows, row.imageType ≠ imageType := by
  unfold versionFor?
  rw [Option.or_eq_none_iff, latest?_eq_none_iff]

theorem Complete.of_versionFor? {imageTypes : List String} {outcome : String → Outcome} {rows : List ActiveVersion}
    (h : ∀ imageType ∈ imageTypes, (versionFor? outcome rows imageType).isSome) :
    Complete imageTypes outcome rows ((Names.ordered imageTypes).filterMap fun imageType =>
      (versionFor? outcome rows imageType).map fun version => (imageType, version)) := by
  have hkeys := Names.keys_filterMap (versionFor? outcome rows) (Names.ordered imageTypes)
  have hversion : ∀ imageType version, (imageType, version) ∈ (Names.ordered imageTypes).filterMap
      (fun imageType => (versionFor? outcome rows imageType).map fun version => (imageType, version)) →
      versionFor? outcome rows imageType = some version :=
    fun _ _ hmem => ((Names.mem_filterMap (versionFor? outcome rows)).mp hmem).2
  constructor
  · rw [hkeys]
    exact (Names.ascending_ordered imageTypes).filter _
  · intro imageType
    rw [hkeys, List.mem_filter, Names.mem_ordered]
    exact ⟨And.left, fun hmem => ⟨hmem, h imageType hmem⟩⟩
  · intro imageType version hmem selected hselected
    have hsome := hversion imageType version hmem
    rw [versionFor?, hselected, Option.some_or] at hsome
    exact (Option.some.inj hsome).symm
  · intro imageType version hmem hnone
    have hsome := hversion imageType version hmem
    rw [versionFor?, hnone, Option.none_or] at hsome
    exact latest?_eq_some_iff.mp hsome

theorem Incomplete.of_versionFor? (imageTypes : List String) (outcome : String → Outcome) (rows : List ActiveVersion) :
    Incomplete imageTypes outcome rows
      ((Names.ordered imageTypes).filter fun imageType => (versionFor? outcome rows imageType).isNone)
      (Names.within ((Names.ordered imageTypes).filter fun imageType => (outcome imageType).violation?.isSome)
        ((Names.ordered imageTypes).filter fun imageType => (versionFor? outcome rows imageType).isNone)) where
  missing_ascending := (Names.ascending_ordered imageTypes).filter _
  mem_missing imageType := by
    rw [List.mem_filter, Names.mem_ordered, Option.isNone_iff_eq_none, versionFor?_eq_none_iff]
  corrupt_ascending := ((Names.ascending_ordered imageTypes).filter _).within _
  mem_corrupt imageType := by
    rw [Names.mem_within, List.mem_filter, List.mem_filter, Option.isSome_iff_exists]
    exact ⟨fun ⟨⟨_, hviol⟩, hmem⟩ => ⟨hmem, hviol⟩, fun ⟨hmem, hviol⟩ => ⟨⟨hmem.1, hviol⟩, hmem⟩⟩

/-- A row counts for a type exactly if no plan gave it a version. -/
theorem settled?_of {requested : List String} {imageType : String} (hmem : imageType ∈ requested)
    (outcome : String → Outcome) (rows : Option (List ActiveVersion)) :
    settled? (Findings.of requested outcome).planned
        (usedRows (requested.filter fun imageType => (outcome imageType).version?.isNone) rows) imageType =
      versionFor? outcome (rows.getD []) imageType := by
  unfold settled? versionFor?
  rw [Findings.lookup_planned, ite_cond_eq_true _ _ (eq_true hmem), latest?_usedRows]
  cases hversion : (outcome imageType).version? with
  | some version => rfl
  | none => simp [hmem, hversion]

theorem verdict_map (requested : List String) (outcome : String → Outcome) (rows : Option (List ActiveVersion)) :
    verdict requested (Findings.of requested outcome)
        (usedRows (requested.filter fun imageType => (outcome imageType).version?.isNone) rows) =
      let missing := requested.filter fun imageType => (versionFor? outcome (rows.getD []) imageType).isNone
      if missing.isEmpty then
        .ok (requested.filterMap fun imageType =>
          (versionFor? outcome (rows.getD []) imageType).map fun version => (imageType, version))
      else
        .error (.domain (.unresolved missing
          (Names.within (requested.filter fun imageType => (outcome imageType).violation?.isSome) missing))) := by
  have hmissing : (requested.filter fun t =>
      (settled? (Findings.of requested outcome).planned
        (usedRows (requested.filter fun t => (outcome t).version?.isNone) rows) t).isNone) =
      requested.filter fun t => (versionFor? outcome (rows.getD []) t).isNone :=
    List.filter_congr fun imageType hmem => by rw [settled?_of hmem]
  unfold verdict
  rw [hmissing, Findings.corrupt_of,
    List.filterMap_congr fun imageType hmem => by rw [settled?_of hmem]]

/-- The requested types that no plan gives a version. -/
def unplanned (imageTypes : List String) (outcome : String → Outcome) : List String :=
  (Names.ordered imageTypes).filter fun imageType => (outcome imageType).version?.isNone

/-- The stores answer in time: one with plans, the other, where it is asked, with rows. -/
structure Answered (source : Source σ) (rules : Rules) (imageTypes : List String) (strategy : Strategy) (b : Backing σ)
    (plans : PlanAnswer) (rows : Option (List ActiveVersion)) : Prop where
  inTime : rules.timeout.isOver = false
  givesPlans : ((source.activePlans (Names.ordered imageTypes)).run b.store).result = .ok (.answered plans)
  givesRows : ∀ remaining,
    remaining = unplanned imageTypes (outcomeIn strategy plans (Names.ordered imageTypes) b.generator) → remaining ≠ [] →
      ((source.latestActive remaining).run
        ((source.activePlans (Names.ordered imageTypes)).run b.store).state).result = .ok (.answered rows)

section

variable {source : Source σ} {rules : Rules} {imageTypes : List String} {strategy : Strategy} {b : Backing σ}
  {plans : PlanAnswer} {rows : Option (List ActiveVersion)}

theorem result_resolveAll_of_no_failure (h : Answered source rules imageTypes strategy b plans rows)
    {outcome : String → Outcome} (houtcome : outcome = outcomeIn strategy plans (Names.ordered imageTypes) b.generator)
    (hnone : ∀ imageType ∈ imageTypes, (outcome imageType).failure? rules.strict imageType = none) :
    ((resolveAll source rules imageTypes (some strategy)).run b).result =
      let missing := (Names.ordered imageTypes).filter fun imageType => (versionFor? outcome (rows.getD []) imageType).isNone
      if missing.isEmpty then
        .ok ((Names.ordered imageTypes).filterMap fun imageType =>
          (versionFor? outcome (rows.getD []) imageType).map fun version => (imageType, version))
      else
        .error (.domain (.unresolved missing
          (Names.within ((Names.ordered imageTypes).filter fun imageType => (outcome imageType).violation?.isSome)
            missing))) := by
  by_cases hne : imageTypes = []
  · subst hne
    simp [resolveAll]
  · rw [run_resolveAll_of_no_failure h.inTime hne h.givesPlans houtcome hnone]
    dsimp only
    rw [result_settle (Findings.without_planned (Names.ordered imageTypes) outcome) h.inTime, verdict_map]
    exact h.givesRows _ (houtcome ▸ rfl)

/-- A batch that goes on past its plans comes to versions if every type has one. -/
theorem exists_versions_of_covered (h : Answered source rules imageTypes strategy b plans rows)
    {outcome : String → Outcome} (houtcome : outcome = outcomeIn strategy plans (Names.ordered imageTypes) b.generator)
    (hnone : ∀ imageType ∈ imageTypes, (outcome imageType).failure? rules.strict imageType = none)
    (hcovered : ∀ imageType ∈ imageTypes, versionFor? outcome (rows.getD []) imageType ≠ none) :
    ∃ versions, ((resolveAll source rules imageTypes (some strategy)).run b).result = .ok versions := by
  have hempty : (Names.ordered imageTypes).filter (fun imageType =>
      (versionFor? outcome (rows.getD []) imageType).isNone) = [] := by
    rw [List.filter_eq_nil_iff]
    intro imageType hmem hmissing
    exact hcovered imageType (Names.mem_ordered.mp hmem) (Option.isNone_iff_eq_none.mp hmissing)
  have hresult := result_resolveAll_of_no_failure h houtcome hnone
  dsimp only at hresult
  rw [if_pos (List.isEmpty_iff.mpr hempty)] at hresult
  exact ⟨_, hresult⟩

/-- A batch that goes on past its plans fails for each type without a version. -/
theorem exists_unresolved_of_uncovered (h : Answered source rules imageTypes strategy b plans rows)
    {outcome : String → Outcome} (houtcome : outcome = outcomeIn strategy plans (Names.ordered imageTypes) b.generator)
    (hnone : ∀ imageType ∈ imageTypes, (outcome imageType).failure? rules.strict imageType = none)
    {imageType : String} (hmem : imageType ∈ imageTypes) (hversion : versionFor? outcome (rows.getD []) imageType = none) :
    ∃ missing corrupt, ((resolveAll source rules imageTypes (some strategy)).run b).result =
      .error (.domain (.unresolved missing corrupt)) ∧ imageType ∈ missing := by
  have hmissing : imageType ∈ (Names.ordered imageTypes).filter fun imageType =>
      (versionFor? outcome (rows.getD []) imageType).isNone :=
    List.mem_filter.mpr ⟨Names.mem_ordered.mpr hmem, Option.isNone_iff_eq_none.mpr hversion⟩
  have hresult := result_resolveAll_of_no_failure h houtcome hnone
  dsimp only at hresult
  rw [if_neg fun hempty => List.ne_nil_of_mem hmissing (List.isEmpty_iff.mp hempty)] at hresult
  exact ⟨_, _, hresult, hmissing⟩

theorem result_resolveAll_of_failure (h : Answered source rules imageTypes strategy b plans rows)
    {outcome : String → Outcome} (houtcome : outcome = outcomeIn strategy plans (Names.ordered imageTypes) b.generator)
    {before after : List String} {last : String} {failure : Failure}
    (hsplit : Names.ordered imageTypes = before ++ last :: after)
    (hnone : ∀ imageType ∈ before, (outcome imageType).failure? rules.strict imageType = none)
    (hlast : (outcome last).failure? rules.strict last = some failure) :
    ((resolveAll source rules imageTypes (some strategy)).run b).result = .error failure := by
  have hne : imageTypes ≠ [] := by
    rintro rfl
    simp at hsplit
  rw [hsplit] at houtcome
  have hfailed := result_surveyed_of_failure (b := b.withPlans source imageTypes)
    (hsplit ▸ Names.ascending_ordered imageTypes) houtcome hnone hlast
  rw [← hsplit] at hfailed
  rw [run_resolveAll_of_answered h.inTime hne h.givesPlans]
  dsimp only
  rw [Action.run_bind_error hfailed]

/-- What a batch comes to where the stores answer in time and the strategy stays in range. -/
theorem resolveAll_outcome (h : Answered source rules imageTypes strategy b plans rows)
    (hrange : strategy.InRange b.generator) :
    let outcome := outcomeIn strategy plans (Names.ordered imageTypes) b.generator
    let result := ((resolveAll source rules imageTypes (some strategy)).run b).result
    let covered := ∀ imageType ∈ imageTypes,
      (outcome imageType).version?.isSome ∨ ∃ row ∈ rows.getD [], row.imageType = imageType
    (∀ imageType ∈ imageTypes, ∀ violation, rules.strict = true → (outcome imageType).violation? = some violation →
      (∀ other ∈ imageTypes, other < imageType → (outcome other).violation? = none) →
        result = .error (.domain (.corruptPlan imageType violation.text))) ∧
    ((rules.strict = true → ∀ imageType ∈ imageTypes, (outcome imageType).violation? = none) →
      (covered → ∃ versions, result = .ok versions ∧ Complete imageTypes outcome (rows.getD []) versions) ∧
      (¬covered → ∃ missing corrupt, result = .error (.domain (.unresolved missing corrupt)) ∧
        Incomplete imageTypes outcome (rows.getD []) missing corrupt)) := by
  intro outcome result covered
  have hfailure := fun imageType =>
    failure?_outcomeIn hrange rules.strict plans (Names.ordered imageTypes) imageType
  refine ⟨fun imageType hmem violation hstrict hviolation hfirst => ?_, fun hclean => ?_⟩
  -- A strict batch ends at the first corrupt plan: no type before it ends the survey.
  · obtain ⟨before, after, hsplit⟩ := List.append_of_mem (Names.mem_ordered.mpr hmem)
    refine result_resolveAll_of_failure h rfl hsplit (fun other hother => ?_) ?_
    · have hascending := hsplit ▸ Names.ascending_ordered imageTypes
      have hlt : other < imageType := (List.pairwise_append.mp hascending).2.2 other hother _ List.mem_cons_self
      have hrequested : other ∈ imageTypes :=
        Names.mem_ordered.mp (hsplit ▸ List.mem_append_left _ hother)
      rw [hfailure, hfirst other hrequested hlt]
      simp
    · rw [hfailure, hviolation, hstrict]
      rfl
  -- Otherwise no outcome ends the survey, and the batch comes to its verdict on all of them.
  · have hnone : ∀ imageType ∈ imageTypes, (outcome imageType).failure? rules.strict imageType = none := by
      intro imageType hmem
      rw [hfailure]
      by_cases hstrict : rules.strict = true
      · rw [hclean hstrict imageType hmem]
        simp
      · rw [ite_cond_eq_false _ _ (eq_false hstrict)]
    have hresult := result_resolveAll_of_no_failure h rfl hnone
    have hcovered : covered ↔ ∀ imageType ∈ imageTypes, (versionFor? outcome (rows.getD []) imageType).isSome :=
      forall₂_congr fun _ _ => versionFor?_isSome_iff.symm
    refine ⟨fun hall => ⟨_, ?_, Complete.of_versionFor? (hcovered.mp hall)⟩, fun hsome => ⟨_, _, ?_,
      Incomplete.of_versionFor? imageTypes outcome (rows.getD [])⟩⟩
    · refine hresult.trans (ite_cond_eq_true _ _ (eq_true ?_))
      rw [List.isEmpty_iff, List.filter_eq_nil_iff]
      intro imageType hmem hnone
      exact Option.isSome_iff_ne_none.mp (hcovered.mp hall imageType (Names.mem_ordered.mp hmem))
        (Option.isNone_iff_eq_none.mp hnone)
    · refine hresult.trans (ite_cond_eq_false _ _ (eq_false fun hempty => hsome (hcovered.mpr ?_)))
      rw [List.isEmpty_iff, List.filter_eq_nil_iff] at hempty
      intro imageType hmem
      refine Option.isSome_iff_ne_none.mpr fun hnone => ?_
      exact hempty imageType (Names.mem_ordered.mpr hmem) (Option.isNone_iff_eq_none.mpr hnone)

def Source.constant (plans : PlanAnswer) (rows : Option (List ActiveVersion)) : Source Unit where
  activePlans _ := pure (.answered plans)
  latestActive _ := pure (.answered rows)
  typeNames? := none

def samplePlans : PlanAnswer :=
  [("spark", some samplePlan), ("presto", none)]

/-- Two rows for one image type, and one for a type that has a plan. -/
def sampleRows : List ActiveVersion :=
  [⟨"spark", "0.9"⟩, ⟨"hive", "3.0"⟩, ⟨"hive", "3.1"⟩]

theorem resolveAll_outcome_sample :
    ∃ versions, ((resolveAll (Source.constant samplePlans (some sampleRows)) ⟨true, .whole 5⟩ ["spark", "hive", "spark"]
        (some (.assigned fun _ => 41))).run (.start () ⟨[], 1⟩)).result = .ok versions ∧
      versions.map Prod.fst = ["hive", "spark"] := by
  have hanswered : Answered (Source.constant samplePlans (some sampleRows)) ⟨true, .whole 5⟩ ["spark", "hive", "spark"]
      (.assigned fun _ => 41) (.start () ⟨[], 1⟩) samplePlans (some sampleRows) :=
    ⟨rfl, rfl, fun _ _ _ => rfl⟩
  obtain ⟨-, hclean⟩ := resolveAll_outcome hanswered fun _ => rfl
  obtain ⟨versions, hresult, hcomplete⟩ := (hclean fun _ => by decide_cbv).1 (by decide_cbv)
  refine ⟨versions, hresult, hcomplete.ascending.eq_of_mem_iff (by decide_cbv) fun name => ?_⟩
  rw [hcomplete.keys]
  grind

end

end ImageRollout
