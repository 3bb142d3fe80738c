import ImageRollout.Proofs.EntryPoints
import ImageRollout.Proofs.Flow.Demand
import ImageRollout.Proofs.Flow.Prefetch
import ImageRollout.Proofs.Resolution.Calls

/-! What a launch is given. It gets a version for the type of every job that runs and for every base type, and
    for nothing else, as a batch of these types gives them. Its users are those whom its jobs run for and
    those whom the prefetch map has for the types of its jobs. Base types count for no user. -/

namespace ImageRollout

variable {σ : Type}

/-! ### The users of jobs -/

/-- A property has a value: the one that the last pair of its name gives. -/
def HasProperty (properties : List (String × String)) (name value : String) : Prop :=
  ∃ before after, properties = before ++ (name, value) :: after ∧ ∀ other ∈ after, other.1 ≠ name

theorem lookup_reverse_eq_some_iff {properties : List (String × String)} {name value : String} :
    properties.reverse.lookup name = some value ↔ HasProperty properties name value := by
  rw [List.lookup_eq_some_iff]
  constructor
  · rintro ⟨after, before, hsplit, hafter⟩
    refine ⟨before.reverse, after.reverse, ?_, fun other hother => ?_⟩
    · rw [← List.reverse_reverse properties, hsplit]
      simp
    · exact (bne_iff_ne.mp (hafter other (List.mem_reverse.mp hother))).symm
  · rintro ⟨before, after, rfl, hafter⟩
    refine ⟨after.reverse, before.reverse, by simp, fun other hother => ?_⟩
    exact bne_iff_ne.mpr (hafter other (List.mem_reverse.mp hother)).symm

/-- A job runs for a user: the one whom an overriding property names or, where there is none that is not empty, the
    one whom its own property names. -/
inductive RunsFor (overrides : FlowNode → List (String × String)) (job : FlowNode) (user : String) : Prop where
  | overridden (h : HasProperty (overrides job) FlowNode.proxyProperty user) (hne : user ≠ "")
  | own (hvacant : ∀ other, HasProperty (overrides job) FlowNode.proxyProperty other → other = "")
      (h : HasProperty job.properties FlowNode.proxyProperty user) (hne : user ≠ "")

namespace FlowNode

theorem filled?_eq_some_iff {properties : List (String × String)} {name value : String} :
    filled? properties name = some value ↔ HasProperty properties name value ∧ value ≠ "" := by
  unfold filled?
  rw [Option.filter_eq_some_iff, lookup_reverse_eq_some_iff]
  simp

theorem filled?_eq_none_iff {properties : List (String × String)} {name : String} :
    filled? properties name = none ↔ ∀ value, HasProperty properties name value → value = "" := by
  rw [Option.eq_none_iff_forall_ne_some]
  constructor
  · intro h value hvalue
    by_contra hne
    exact h value (filled?_eq_some_iff.mpr ⟨hvalue, hne⟩)
  · intro h value hvalue
    obtain ⟨hvalue, hne⟩ := filled?_eq_some_iff.mp hvalue
    exact hne (h value hvalue)

theorem proxyUser?_eq_some_iff {overrides : FlowNode → List (String × String)} {job : FlowNode} {user : String} :
    proxyUser? overrides job = some user ↔ RunsFor overrides job user := by
  unfold proxyUser?
  rw [Option.or_eq_some_iff, filled?_eq_some_iff, filled?_eq_some_iff, filled?_eq_none_iff]
  constructor
  · rintro (⟨h, hne⟩ | ⟨hvacant, h, hne⟩)
    · exact .overridden h hne
    · exact .own hvacant h hne
  · rintro (⟨h, hne⟩ | ⟨hvacant, h, hne⟩)
    · exact Or.inl ⟨h, hne⟩
    · exact Or.inr ⟨hvacant, h, hne⟩

end FlowNode

/-! ### What a launch needs -/

namespace Launch

/-- An image type that a launch needs: the type of a job that runs, or a base type. -/
def NeedsType (launch : Launch) (imageType : String) : Prop :=
  (∃ path job, launch.flow.JobAt path job ∧ job.type? = some imageType ∧ imageType ≠ "") ∨
    imageType ∈ launch.baseTypes

/-- A user whom a launch needs: one whom a job runs for, or one whom the prefetch map has for the type of a job. -/
def NeedsUser (launch : Launch) (map user : String) : Prop :=
  (∃ path job, launch.flow.JobAt path job ∧ RunsFor launch.overrides job user) ∨
    ∃ path job jobType, launch.flow.JobAt path job ∧ job.type? = some jobType ∧ (jobType, user) ∈ Prefetch.pairs map

theorem mem_imageTypes {launch : Launch} {imageType : String} :
    imageType ∈ launch.imageTypes ↔ launch.NeedsType imageType := by
  unfold imageTypes NeedsType
  rw [Names.mem_ordered, List.mem_append, FlowNode.mem_jobTypes]

theorem mem_proxyUsers {launch : Launch} {settings : Settings} {user : String} :
    user ∈ launch.proxyUsers settings ↔ launch.NeedsUser settings.prefetchUsers user := by
  unfold proxyUsers NeedsUser
  rw [Names.mem_ordered, List.mem_append, FlowNode.mem_proxyUsers, Prefetch.mem_users]
  simp only [FlowNode.proxyUser?_eq_some_iff]
  refine or_congr_right ⟨?_, ?_⟩
  · rintro ⟨jobType, hjobType, hpair⟩
    obtain ⟨path, job, hat, htype, -⟩ := FlowNode.mem_jobTypes.mp hjobType
    exact ⟨path, job, jobType, hat, htype, hpair⟩
  · rintro ⟨path, job, jobType, hat, htype, hpair⟩
    obtain ⟨hne, -⟩ := Prefetch.ne_empty_of_mem_pairs hpair
    exact ⟨jobType, FlowNode.mem_jobTypes.mpr ⟨path, job, hat, htype, hne⟩, hpair⟩

end Launch

/-! ### What a batch gives -/

section

variable {source : Source σ} {rules : Rules} {imageTypes : List String} {strategy : Strategy} {b : Backing σ}

/-- A batch fails where one of its types has no version from a plan and no row. If its rules are lenient it names
    that type. -/
theorem exists_failure_of_unsettled {plans : PlanAnswer} {rows : Option (List ActiveVersion)}
    (h : Answered source rules imageTypes strategy b plans rows) (hrange : strategy.InRange b.generator)
    {imageType : String} (hmem : imageType ∈ imageTypes)
    (hversion : (outcomeIn strategy plans (Names.ordered imageTypes) b.generator imageType).version? = none)
    (hrows : ∀ row ∈ rows.getD [], row.imageType ≠ imageType) :
    ∃ f, ((resolveAll source rules imageTypes (some strategy)).run b).result = .error f ∧
      (rules.strict = false → ∃ missing corrupt, f = .domain (.unresolved missing corrupt) ∧ imageType ∈ missing) := by
  by_cases hended : EndedByPlans rules imageTypes (outcomeIn strategy plans (Names.ordered imageTypes) b.generator)
  · obtain ⟨other, reason, hfailure⟩ := exists_failure_of_corrupt hrange plans hended
    obtain ⟨hresult, -⟩ := run_resolveAll_of_corrupt h.inTime (List.ne_nil_of_mem hmem) h.givesPlans hfailure
    exact ⟨_, hresult, fun hlenient => absurd (hlenient.symm.trans hended.1) Bool.false_ne_true⟩
  · have hnone := (failure?_eq_none_iff hrange plans).mpr hended
    have hneither := versionFor?_eq_none_iff.mpr ⟨hversion, hrows⟩
    obtain ⟨missing, corrupt, hresult, hmissing⟩ := exists_unresolved_of_uncovered h rfl hnone hmem hneither
    exact ⟨_, hresult, fun _ => ⟨missing, corrupt, rfl, hmissing⟩⟩

end

/-! ### What a launch is given -/

theorem result_plan_eq_ok_iff {launch : Launch} {source : Source σ} {settings : Settings} {rules : Rules} {b : Backing σ}
    {given : LaunchPlan} :
    ((launch.plan source settings rules).run b).result = .ok given ↔
      ((resolveAll source rules launch.imageTypes (some (launch.strategy settings))).run b).result = .ok given.versions ∧
        given.flowName = launch.name ∧ given.proxyUsers = launch.proxyUsers settings := by
  rw [result_plan]
  obtain ⟨flowName, versions, proxyUsers⟩ := given
  cases ((resolveAll source rules launch.imageTypes (some (launch.strategy settings))).run b).result with
  | error f => exact iff_of_false (fun h => nomatch h) fun h => nomatch h.1
  | ok found =>
    constructor
    · rintro ⟨⟩
      exact ⟨rfl, rfl, rfl⟩
    · rintro ⟨⟨⟩, rfl, rfl⟩
      rfl

/-- A launch is given what it needs: a version for each image type that it needs, as a batch of these types has it,
    and the users whom it needs, who are the same with other base types. -/
structure Launch.Provided (launch : Launch) (source : Source σ) (settings : Settings) (rules : Rules) (b : Backing σ)
    (given : LaunchPlan) : Prop where
  flowName : given.flowName = launch.project ++ "." ++ launch.flowId
  ascending : Names.Ascending (given.versions.map Prod.fst)
  types : ∀ imageType, imageType ∈ given.versions.map Prod.fst ↔ launch.NeedsType imageType
  versions : ∀ imageTypes, (∀ imageType, imageType ∈ imageTypes ↔ launch.NeedsType imageType) →
    ((resolveAll source rules imageTypes (some (launch.strategy settings))).run b).result = .ok given.versions
  users_ascending : Names.Ascending given.proxyUsers
  users : ∀ user, user ∈ given.proxyUsers ↔ launch.NeedsUser settings.prefetchUsers user
  users_kept : ∀ others given',
    ((({ launch with baseTypes := others } : Launch).plan source settings rules).run b).result = .ok given' →
      given'.proxyUsers = given.proxyUsers

/-- A launch that succeeds is given exactly what it needs. It fails as the batch of the types that it needs does,
    and so where one of these types has no version from a plan and no active one. -/
theorem launch_gets_what_it_needs (launch : Launch) (source : Source σ) (settings : Settings) (rules : Rules)
    (b : Backing σ) :
    let result := ((launch.plan source settings rules).run b).result
    (∀ given, result = .ok given → launch.Provided source settings rules b given) ∧
    (∀ imageTypes, (∀ imageType, imageType ∈ imageTypes ↔ launch.NeedsType imageType) →
      ∀ f, ((resolveAll source rules imageTypes (some (launch.strategy settings))).run b).result = .error f →
        result = .error f) ∧
    ∀ plans rows, Answered source rules launch.imageTypes (launch.strategy settings) b plans rows →
      (launch.strategy settings).InRange b.generator → ∀ imageType, launch.NeedsType imageType →
        (outcomeIn (launch.strategy settings) plans (Names.ordered launch.imageTypes) b.generator imageType).version? =
          none → (∀ row ∈ rows.getD [], row.imageType ≠ imageType) →
        ∃ f, result = .error f ∧
          (rules.strict = false → ∃ missing corrupt, f = .domain (.unresolved missing corrupt) ∧ imageType ∈ missing) := by
  intro result
  have hsame : ∀ imageTypes, (∀ imageType, imageType ∈ imageTypes ↔ launch.NeedsType imageType) →
      resolveAll source rules imageTypes (some (launch.strategy settings)) =
        resolveAll source rules launch.imageTypes (some (launch.strategy settings)) := fun imageTypes himageTypes =>
    SameNames.resolveAll_eq (fun name => (himageTypes name).trans Launch.mem_imageTypes.symm) source rules _
  have hfails : ∀ f, ((resolveAll source rules launch.imageTypes (some (launch.strategy settings))).run b).result =
      .error f → result = .error f := fun f hf => by
    have hresult : result = _ := result_plan source settings rules launch b
    rw [hresult, hf]
    rfl
  refine ⟨fun given hgiven => ?_, fun imageTypes himageTypes f hf => ?_,
    fun plans rows hanswered hrange imageType hneeded hversion hrows => ?_⟩
  · obtain ⟨hversions, hname, husers⟩ := result_plan_eq_ok_iff.mp hgiven
    have hkeys := keys_resolveAll hversions
    exact {
      flowName := hname
      ascending := by
        rw [hkeys]
        exact Names.ascending_ordered _
      types := fun imageType => by
        rw [hkeys, Names.mem_ordered, Launch.mem_imageTypes]
      versions := fun imageTypes himageTypes => by
        rw [hsame imageTypes himageTypes, hversions]
      users_ascending := by
        rw [husers]
        exact Names.ascending_ordered _
      users := fun user => by
        rw [husers, Launch.mem_proxyUsers]
      users_kept := fun others given' hgiven' => (result_plan_eq_ok_iff.mp hgiven').2.2.trans husers.symm }
  · rw [hsame imageTypes himageTypes] at hf
    exact hfails f hf
  · have hrequested := Launch.mem_imageTypes.mpr hneeded
    obtain ⟨f, hf, hnamed⟩ := exists_failure_of_unsettled hanswered hrange hrequested hversion hrows
    exact ⟨f, hfails f hf, hnamed⟩

/-- A flow with users of its own, whose user for one job is overridden and for another by nothing. -/
def staffedLaunch : Launch where
  project := "etl"
  flowId := "nightly"
  flow := { id := "nightly", type? := some "flow", children :=
    [{ id := "extract", type? := some "spark", properties := [("user.to.proxy", "etl")] },
      { id := "load", type? := some "hive", properties := [("user.to.proxy", "loader")] },
      { id := "report", type? := some "pig", status := "DISABLED", properties := [("user.to.proxy", "ghost")] }] }
  sticky := some true
  baseTypes := ["exec"]
  overrides job := [("user.to.proxy", if job.id = "load" then "deputy" else "")]

def staffedSettings : Settings :=
  { prefetchUsers := "exec,root; spark , cache" }

def staffedRows : List ActiveVersion :=
  [⟨"spark", "1.0"⟩, ⟨"exec", "9.9"⟩, ⟨"hive", "3.1"⟩]

theorem jobTypes_staffedLaunch : staffedLaunch.flow.jobTypes = Names.ordered ["spark", "hive"] := by
  unfold FlowNode.jobTypes
  rw [FlowNode.enabledJobs_eq_preorder]
  rfl

theorem mem_imageTypes_staffedLaunch {imageType : String} :
    imageType ∈ staffedLaunch.imageTypes ↔ imageType ∈ ["exec", "hive", "spark"] := by
  have hbase : staffedLaunch.baseTypes = ["exec"] := rfl
  unfold Launch.imageTypes
  rw [jobTypes_staffedLaunch, hbase, Names.mem_ordered, List.mem_append, Names.mem_ordered]
  simp only [List.mem_cons, List.not_mem_nil, or_false]
  tauto

theorem mem_proxyUsers_staffedLaunch {user : String} :
    user ∈ staffedLaunch.proxyUsers staffedSettings ↔ user ∈ ["cache", "deputy", "etl"] := by
  have husers : staffedLaunch.flow.proxyUsers staffedLaunch.overrides = Names.ordered ["etl", "deputy"] := by
    unfold FlowNode.proxyUsers
    rw [FlowNode.enabledJobs_eq_preorder]
    rfl
  have hpairs : Prefetch.pairs staffedSettings.prefetchUsers = [("exec", "root"), ("spark", "cache")] := rfl
  unfold Launch.proxyUsers
  rw [husers, Names.mem_ordered, List.mem_append, Names.mem_ordered, Prefetch.mem_users, jobTypes_staffedLaunch, hpairs]
  simp only [List.mem_cons, List.not_mem_nil, or_false, Names.mem_ordered, Prod.mk.injEq, exists_eq_or_imp,
    String.reduceEq, false_and, true_and, false_or, ↓existsAndEq]
  tauto

theorem launch_gets_what_it_needs_sample :
    let result (rows : List ActiveVersion) := ((staffedLaunch.plan (Source.constant samplePlans (some rows)) staffedSettings
      ⟨false, .whole 5⟩).run (.start () ⟨[], 1⟩)).result
    (∃ given, result staffedRows = .ok given ∧ given.versions.map Prod.fst = ["exec", "hive", "spark"] ∧
      "deputy" ∈ given.proxyUsers ∧ "root" ∉ given.proxyUsers) ∧
    ∃ missing corrupt, result sampleRows = .error (.domain (.unresolved missing corrupt)) ∧ "exec" ∈ missing := by
  intro result
  have hrange : (staffedLaunch.strategy staffedSettings).InRange ⟨[], 1⟩ := Strategy.inRange_keyed _ _
  have hanswered : ∀ rows, Answered (Source.constant samplePlans (some rows)) ⟨false, .whole 5⟩ staffedLaunch.imageTypes
      (staffedLaunch.strategy staffedSettings) (.start () ⟨[], 1⟩) samplePlans (some rows) :=
    fun _ => ⟨rfl, rfl, fun _ _ _ => rfl⟩
  constructor
  · obtain ⟨hgiven, -⟩ := launch_gets_what_it_needs staffedLaunch (Source.constant samplePlans (some staffedRows))
      staffedSettings ⟨false, .whole 5⟩ (.start () ⟨[], 1⟩)
    have hrows : ∀ imageType ∈ ["exec", "hive", "spark"], ∃ row ∈ staffedRows, row.imageType = imageType := by decide
    have hnone := (@failure?_eq_none_iff _ ⟨false, .whole 5⟩ staffedLaunch.imageTypes _ (.start () ⟨[], 1⟩) hrange
      samplePlans).mpr fun h => Bool.false_ne_true h.1
    obtain ⟨versions, hversions⟩ := exists_versions_of_covered (hanswered staffedRows) rfl hnone
      fun imageType hmem hneither => by
        obtain ⟨row, hrow, htype⟩ := hrows imageType (mem_imageTypes_staffedLaunch.mp hmem)
        exact (versionFor?_eq_none_iff.mp hneither).2 row hrow htype
    have hresult : result staffedRows = .ok ⟨_, versions, staffedLaunch.proxyUsers staffedSettings⟩ :=
      result_plan_eq_ok_iff.mpr ⟨hversions, rfl, rfl⟩
    have hprovided := hgiven _ hresult
    refine ⟨_, hresult, hprovided.ascending.eq_of_mem_iff (by decide) fun imageType => ?_, ?_, ?_⟩
    · rw [hprovided.types, ← Launch.mem_imageTypes, mem_imageTypes_staffedLaunch]
    · rw [mem_proxyUsers_staffedLaunch]
      decide
    · rw [mem_proxyUsers_staffedLaunch]
      decide
  · obtain ⟨-, -, hunsettled⟩ := launch_gets_what_it_needs staffedLaunch (Source.constant samplePlans (some sampleRows))
      staffedSettings ⟨false, .whole 5⟩ (.start () ⟨[], 1⟩)
    have hversion : (outcomeIn (staffedLaunch.strategy staffedSettings) samplePlans (Names.ordered staffedLaunch.imageTypes)
        ⟨[], 1⟩ "exec").version? = none := by
      rw [outcomeIn_of_no_plan _ rfl]
      rfl
    obtain ⟨f, hf, hnamed⟩ := hunsettled samplePlans (some sampleRows) (hanswered sampleRows) hrange "exec"
      (Or.inr List.mem_cons_self) hversion (by decide)
    obtain ⟨missing, corrupt, rfl, hmem⟩ := hnamed rfl
    exact ⟨missing, corrupt, hf, hmem⟩

end ImageRollout
