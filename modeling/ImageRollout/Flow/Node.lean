import ImageRollout.Names

/-! Flows. A flow is a tree: nodes of the flow type hold other nodes, and every other node is a job. The
    jobs of a flow are found with a stack of the nodes that are still to be visited, so that a flow may
    be of any depth. -/

namespace ImageRollout

/-- A job, or a flow within a flow. -/
structure FlowNode where
  id : String
  type? : Option String := none
  status : String := "READY"
  properties : List (String × String) := []
  children : List FlowNode := []

namespace FlowNode

/-- The type of the nodes that hold other nodes. -/
def flowType : String := "flow"

/-- The status of the jobs that do not run. -/
def disabled : String := "DISABLED"

/-- The property that names the user whom a job runs for. -/
def proxyProperty : String := "user.to.proxy"

def isFlow (node : FlowNode) : Bool :=
  node.type? == some flowType

def isEnabled (node : FlowNode) : Bool :=
  node.status != disabled

theorem sizeOf_append (nodes others : List FlowNode) :
    sizeOf (nodes ++ others) + 1 = sizeOf nodes + sizeOf others := by
  induction nodes with
  | nil => simp only [List.nil_append, List.nil.sizeOf_spec]; omega
  | cons node rest ih => simp only [List.cons_append, List.cons.sizeOf_spec]; omega

theorem sizeOf_children_lt (node : FlowNode) : sizeOf node.children < sizeOf node := by
  cases node
  simp only [FlowNode.mk.sizeOf_spec]
  omega

/-- The jobs that run, among the nodes of a stack and all that they hold, depth first. -/
def walk : List FlowNode → List FlowNode
  | [] => []
  | node :: rest =>
    if node.isFlow then walk (node.children ++ rest)
    else if node.isEnabled then node :: walk rest
    else walk rest
termination_by stack => sizeOf stack
decreasing_by
  · have h₁ := sizeOf_append node.children rest
    have h₂ := sizeOf_children_lt node
    simp only [List.cons.sizeOf_spec]
    omega
  · simp only [List.cons.sizeOf_spec]; omega
  · simp only [List.cons.sizeOf_spec]; omega

/-- The jobs of a flow that run, depth first. -/
def enabledJobs (flow : FlowNode) : List FlowNode :=
  walk [flow]

/-- The types of the jobs that run, in code point order. -/
def jobTypes (flow : FlowNode) : List String :=
  Names.ordered ((flow.enabledJobs.filterMap FlowNode.type?).filter fun name => !name.isEmpty)

/-- A property that is not empty. Of several of one name the last one counts. -/
def filled? (properties : List (String × String)) (name : String) : Option String :=
  (properties.reverse.lookup name).filter fun value => !value.isEmpty

/-- The user whom a job runs for, where the properties that override its own come first. -/
def proxyUser? (overrides : FlowNode → List (String × String)) (job : FlowNode) : Option String :=
  (filled? (overrides job) proxyProperty).or (filled? job.properties proxyProperty)

/-- The users whom the jobs that run are for, in code point order. -/
def proxyUsers (overrides : FlowNode → List (String × String)) (flow : FlowNode) : List String :=
  Names.ordered (flow.enabledJobs.filterMap (proxyUser? overrides))

end FlowNode

end ImageRollout
