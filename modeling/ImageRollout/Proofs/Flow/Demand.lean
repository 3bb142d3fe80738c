import Mathlib.Data.List.Basic
import ImageRollout.Proofs.Flow.Traversal
import ImageRollout.Proofs.Names

/-! What a flow demands of its launch: image types for its jobs, and the users whom they run for. A job that is
    disabled demands neither, and nor does anything below it. An embedded flow has a status too, but nothing
    looks at it: the jobs of a disabled flow demand what they would if it ran. -/

namespace ImageRollout

namespace FlowNode

/-! ### The jobs that count -/

/-- A job that runs stands at a path through flows. -/
structure JobAt (flow : FlowNode) (path : List Nat) (job : FlowNode) : Prop where
  reached : Reaches flow path job
  isJob : job.isFlow = false
  runs : job.status ≠ disabled

theorem isEnabled_iff {node : FlowNode} : node.isEnabled = true ↔ node.status ≠ disabled := by
  unfold isEnabled
  rw [bne_iff_ne]

theorem runs_iff {node : FlowNode} : node.runs = true ↔ node.isFlow = false ∧ node.status ≠ disabled := by
  unfold FlowNode.runs
  rw [Bool.and_eq_true, Bool.not_eq_true', isEnabled_iff]

theorem mem_enabledJobs {flow job : FlowNode} : job ∈ flow.enabledJobs ↔ ∃ path, JobAt flow path job := by
  rw [enabledJobs_eq_preorder, preorder_eq_filter, List.mem_filter, List.mem_map, runs_iff]
  constructor
  · rintro ⟨⟨⟨path, _⟩, hmem, rfl⟩, hjob, hruns⟩
    exact ⟨path, mem_visited.mp hmem, hjob, hruns⟩
  · rintro ⟨path, hreached, hjob, hruns⟩
    exact ⟨⟨(path, job), mem_visited.mpr hreached, rfl⟩, hjob, hruns⟩

theorem mem_jobTypes {flow : FlowNode} {name : String} :
    name ∈ flow.jobTypes ↔ ∃ path job, JobAt flow path job ∧ job.type? = some name ∧ name ≠ "" := by
  unfold jobTypes
  rw [Names.mem_ordered, List.mem_filter, List.mem_filterMap]
  constructor
  · rintro ⟨⟨job, hjob, htype⟩, hne⟩
    obtain ⟨path, hat⟩ := mem_enabledJobs.mp hjob
    exact ⟨path, job, hat, htype, by simpa using hne⟩
  · rintro ⟨path, job, hat, htype, hne⟩
    exact ⟨⟨job, mem_enabledJobs.mpr ⟨path, hat⟩, htype⟩, by simpa using hne⟩

theorem mem_proxyUsers {overrides : FlowNode → List (String × String)} {flow : FlowNode} {user : String} :
    user ∈ flow.proxyUsers overrides ↔ ∃ path job, JobAt flow path job ∧ proxyUser? overrides job = some user := by
  unfold proxyUsers
  rw [Names.mem_ordered, List.mem_filterMap]
  constructor
  · rintro ⟨job, hjob, huser⟩
    obtain ⟨path, hat⟩ := mem_enabledJobs.mp hjob
    exact ⟨path, job, hat, huser⟩
  · rintro ⟨path, job, hat, huser⟩
    exact ⟨job, mem_enabledJobs.mpr ⟨path, hat⟩, huser⟩

/-! ### Flows that demand the same -/

/-- A lookup of overriding properties that goes by a job and not by what hangs below it. -/
def Shallow (overrides : FlowNode → List (String × String)) : Prop :=
  ∀ job children, overrides (job.withChildren children) = overrides job

theorem Shallow.proxyUser?_bare {overrides : FlowNode → List (String × String)} (h : Shallow overrides) (job : FlowNode) :
    proxyUser? overrides job.bare = proxyUser? overrides job := by
  unfold proxyUser? bare
  rw [h]
  rfl

theorem jobTypes_congr {flow other : FlowNode} (h : other.enabledJobs.map bare = flow.enabledJobs.map bare) :
    other.jobTypes = flow.jobTypes := by
  have htypes : ∀ jobs : List FlowNode, jobs.filterMap FlowNode.type? = (jobs.map bare).filterMap FlowNode.type? :=
    fun jobs => by
      rw [List.filterMap_map]
      rfl
  unfold jobTypes
  rw [htypes, h, ← htypes]

theorem proxyUsers_congr {overrides : FlowNode → List (String × String)} (hshallow : Shallow overrides)
    {flow other : FlowNode} (h : other.enabledJobs.map bare = flow.enabledJobs.map bare) :
    other.proxyUsers overrides = flow.proxyUsers overrides := by
  have husers : ∀ jobs : List FlowNode,
      jobs.filterMap (proxyUser? overrides) = (jobs.map bare).filterMap (proxyUser? overrides) := fun jobs => by
    rw [List.filterMap_map]
    exact List.filterMap_congr fun job _ => (hshallow.proxyUser?_bare job).symm
  unfold proxyUsers
  rw [husers, h, ← husers]

/-! ### Nodes at paths -/

/-- The node at a path. -/
def at? : FlowNode → List Nat → Option FlowNode
  | node, [] => some node
  | node, i :: path => node.children[i]?.bind fun child => child.at? path

theorem at?_nil (node : FlowNode) : node.at? [] = some node := by
  cases node
  rfl

theorem at?_cons (node : FlowNode) (i : Nat) (path : List Nat) :
    node.at? (i :: path) = node.children[i]?.bind fun child => child.at? path := by
  cases node
  rfl

theorem Reaches.at?_eq {flow node : FlowNode} {path : List Nat} (h : Reaches flow path node) : flow.at? path = some node := by
  induction h with
  | here node => exact at?_nil node
  | inside hflow hchild h ih => rw [at?_cons, hchild, Option.bind_some, ih]

theorem Reaches.append {flow node found : FlowNode} {path rest : List Nat} (h : Reaches flow path node)
    (hrest : Reaches node rest found) : Reaches flow (path ++ rest) found := by
  induction h with
  | here node => exact hrest
  | inside hflow hchild _ ih => exact .inside hflow hchild (ih hrest)

theorem Reaches.split {flow found : FlowNode} {path rest : List Nat} (h : Reaches flow (path ++ rest) found) :
    ∃ node, Reaches flow path node ∧ Reaches node rest found := by
  induction path generalizing flow with
  | nil => exact ⟨flow, .here flow, h⟩
  | cons i path ih =>
    obtain _ | ⟨hflow, hchild, h⟩ := h
    obtain ⟨node, hnode, hrest⟩ := ih h
    exact ⟨node, .inside hflow hchild hnode, hrest⟩

/-! ### Disabled nodes -/

theorem preorder_of_disabled {job : FlowNode} (hjob : job.isFlow = false) (hdisabled : job.status = disabled) :
    job.preorder = [] := by
  rw [preorder_of_job hjob, if_neg fun henabled => isEnabled_iff.mp henabled hdisabled]

/-- Where a node is replaced by one that finds the same jobs, the flow finds the same jobs. -/
theorem enabledJobs_put {flow node new : FlowNode} {path : List Nat} (h : Reaches flow path node)
    (hsame : new.preorder = node.preorder) : (flow.put path new).enabledJobs = flow.enabledJobs := by
  obtain ⟨before, after, hbefore, hput⟩ := h.segment
  rw [enabledJobs_eq_preorder, enabledJobs_eq_preorder, hput, hbefore, hsame]

/-- A flow demands the same with another node at a path. -/
structure SameDemand (flow : FlowNode) (path : List Nat) (node new : FlowNode) : Prop where
  jobTypes : (flow.put path new).jobTypes = flow.jobTypes
  proxyUsers : ∀ overrides, Reaches flow path node ∨ Shallow overrides →
    (flow.put path new).proxyUsers overrides = flow.proxyUsers overrides

theorem SameDemand.of_preorder_eq {flow node new : FlowNode} {path : List Nat} (hat : flow.at? path = some node)
    (hsame : new.preorder = node.preorder) : SameDemand flow path node new := by
  by_cases hreached : Reaches flow path node
  · have hjobs := enabledJobs_put hreached hsame
    refine ⟨?_, fun overrides _ => ?_⟩
    · unfold FlowNode.jobTypes
      rw [hjobs]
    · unfold FlowNode.proxyUsers
      rw [hjobs]
  · have hbare : (flow.put path new).enabledJobs.map bare = flow.enabledJobs.map bare := by
      rw [enabledJobs_eq_preorder, enabledJobs_eq_preorder]
      refine preorder_put_of_not_reached (fun old hold => hreached ?_) new
      rwa [← Option.some.inj (hold.at?_eq.symm.trans hat)]
    exact ⟨jobTypes_congr hbare, fun overrides hoverrides => proxyUsers_congr (hoverrides.resolve_left hreached) hbare⟩

/-- A disabled job demands nothing, whatever hangs below it. A disabled flow demands what it would with any other
    status: each of its jobs counts. -/
theorem disabled_jobs_demand_nothing {flow node : FlowNode} {path : List Nat} (hat : flow.at? path = some node)
    (hdisabled : node.status = disabled) :
    (∀ name, name ∈ flow.jobTypes ↔ ∃ place job, JobAt flow place job ∧ job.type? = some name ∧ name ≠ "") ∧
    (∀ overrides user, user ∈ flow.proxyUsers overrides ↔
      ∃ place job, JobAt flow place job ∧ proxyUser? overrides job = some user) ∧
    (node.isFlow = false →
      (∀ place job, JobAt flow place job → ¬path <+: place) ∧
        ∀ others, SameDemand flow path node (node.withChildren others)) ∧
    (node.isFlow = true →
      (Reaches flow path node → ∀ rest job, JobAt node rest job → JobAt flow (path ++ rest) job) ∧
        ∀ status, SameDemand flow path node { node with status }) := by
  refine ⟨fun name => mem_jobTypes, fun overrides user => mem_proxyUsers, fun hjob => ⟨?_, fun others => ?_⟩,
    fun hflow => ⟨fun hreached rest job hjob => ?_, fun status => ?_⟩⟩
  · rintro _ job ⟨hreached, -, hruns⟩ ⟨rest, rfl⟩
    obtain ⟨found, hfound, hrest⟩ := hreached.split
    obtain rfl := Option.some.inj (hfound.at?_eq.symm.trans hat)
    -- The path goes on below the job only if the job is a flow.
    obtain _ | ⟨hflow, -, -⟩ := hrest
    · exact hruns hdisabled
    · exact Bool.false_ne_true (hjob.symm.trans hflow)
  · refine .of_preorder_eq hat ?_
    rw [preorder_of_disabled hjob hdisabled]
    exact @preorder_of_disabled (node.withChildren others) hjob hdisabled
  · exact ⟨hreached.append hjob.reached, hjob.isJob, hjob.runs⟩
  · refine .of_preorder_eq hat ?_
    rw [preorder_of_flow hflow, @preorder_of_flow { node with status } hflow]

/-- A disabled flow with a job. -/
def pausedPart : FlowNode where
  id := "paused"
  type? := some flowType
  status := disabled
  children := [{ id := "load", type? := some "hive", properties := [(proxyProperty, "loader")] }]

/-- A flow with nothing but a disabled one in it. -/
def pausedFlow : FlowNode where
  id := "daily"
  type? := some flowType
  children := [pausedPart]

theorem disabled_jobs_demand_nothing_sample :
    (nestedFlow.put [1, 1] { id := "report", type? := some "pig", status := disabled, children := [nestedFlow] }).jobTypes =
        nestedFlow.jobTypes ∧
      (∀ place job, JobAt nestedFlow place job → ¬[1, 1] <+: place) ∧
      JobAt pausedFlow [0, 0] { id := "load", type? := some "hive", properties := [(proxyProperty, "loader")] } := by
  obtain ⟨-, -, hjob, -⟩ := @disabled_jobs_demand_nothing nestedFlow
    { id := "report", type? := some "pig", status := disabled } [1, 1] rfl rfl
  obtain ⟨-, -, -, hflow⟩ := @disabled_jobs_demand_nothing pausedFlow pausedPart [0] rfl rfl
  obtain ⟨hnone, hsame⟩ := hjob rfl
  obtain ⟨hcounts, -⟩ := hflow rfl
  exact ⟨(hsame [nestedFlow]).jobTypes, hnone,
    hcounts (.inside rfl rfl (.here _)) [0] _ ⟨.inside rfl rfl (.here _), rfl, by decide⟩⟩

/-- The job of a disabled flow has its type and its user among those that the flow around it demands. -/
theorem disabled_flow_is_demanding :
    ¬∀ (flow node : FlowNode) (path : List Nat), flow.at? path = some node → node.status = disabled →
      ∀ others, (flow.put path (node.withChildren others)).jobTypes = flow.jobTypes ∧
        ∀ overrides, (flow.put path (node.withChildren others)).proxyUsers overrides = flow.proxyUsers overrides := by
  intro h
  obtain ⟨htypes, -⟩ := h pausedFlow pausedPart [0] rfl rfl []
  have hneeded : "hive" ∈ pausedFlow.jobTypes :=
    mem_jobTypes.mpr ⟨[0, 0], _, ⟨.inside rfl rfl (.inside rfl rfl (.here _)), rfl, by decide⟩, rfl, by decide⟩
  rw [← htypes] at hneeded
  obtain ⟨path, job, hat, -⟩ := mem_jobTypes.mp hneeded
  have hjob := mem_enabledJobs.mpr ⟨path, hat⟩
  rw [enabledJobs_eq_preorder] at hjob
  cases hjob

end FlowNode

end ImageRollout
