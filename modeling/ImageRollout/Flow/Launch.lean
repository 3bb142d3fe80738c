import ImageRollout.Flow.Node
import ImageRollout.Flow.Prefetch
import ImageRollout.Resolution.Batch

/-! Preparing the launch of a flow: every job type that it uses gets a version, and the users whom it
    needs are gathered. A sticky flow draws by its name, and so keeps its versions. -/

namespace ImageRollout

structure Launch where
  project : String
  flowId : String
  flow : FlowNode
  /-- Whether the draw is that of the flow's name; the settings say where this does not. -/
  sticky : Option Bool := none
  /-- Image types that are needed whatever the jobs. -/
  baseTypes : List String := []
  /-- The properties that override those of a node. -/
  overrides : FlowNode → List (String × String) := fun _ => []

/-- What a launch needs. -/
structure LaunchPlan where
  flowName : String
  versions : Versions
  proxyUsers : List String
  deriving DecidableEq, Repr

namespace Launch

def name (launch : Launch) : String :=
  launch.project ++ "." ++ launch.flowId

theorem bytesOf_name_ne_nil (launch : Launch) : bytesOf launch.name ≠ [] := by
  have dot : bytesOf "." ≠ [] := by decide
  simp [name, bytesOf_append, dot]

def key (launch : Launch) : Key :=
  ⟨bytesOf launch.name, launch.bytesOf_name_ne_nil⟩

/-- Whether the flow keeps its versions. -/
def isSticky (launch : Launch) (settings : Settings) : Bool :=
  launch.sticky.getD (settings.defaultSelection == Selection.deterministic.name)

/-- Where the draws of the flow come from. -/
def strategy (launch : Launch) (settings : Settings) : Strategy :=
  if launch.isSticky settings then .keyed launch.key else .generated

/-- The image types of the launch, in code point order. -/
def imageTypes (launch : Launch) : List String :=
  Names.ordered (launch.flow.jobTypes ++ launch.baseTypes)

def proxyUsers (launch : Launch) (settings : Settings) : List String :=
  Names.ordered (launch.flow.proxyUsers launch.overrides ++
    Prefetch.users settings.prefetchUsers launch.flow.jobTypes)

def plan {σ : Type} (launch : Launch) (source : Source σ) (settings : Settings) (rules : Rules) :
    Action (Backing σ) LaunchPlan := do
  Action.report [.flowStarted launch.name launch.imageTypes]
  let versions ← resolveAll source rules launch.imageTypes (some (launch.strategy settings))
  pure ⟨launch.name, versions, launch.proxyUsers settings⟩

end Launch

end ImageRollout
