import Mathlib
import ImageRollout.Flow.Node

/-! How a flow is traversed. The traversal takes one node after the other from a stack and puts the children
    of a flow in its place. It ends when it has taken each node that can be reached through flows, which is
    when it has found the jobs that a recursive walk finds, in the same order (`enabledJobs_eq_preorder`). -/

namespace ImageRollout

namespace FlowNode

theorem sizeOf_lt_of_mem_children {node child : FlowNode} (h : child ∈ node.children) : sizeOf child < sizeOf node :=
  Nat.lt_trans (List.sizeOf_lt_of_mem h) (sizeOf_children_lt node)

/-- What holds of a node if it holds of its children holds of every node. -/
theorem induction_on_children {P : FlowNode → Prop} (h : ∀ node, (∀ child ∈ node.children, P child) → P node)
    (node : FlowNode) : P node :=
  h node fun child _ => induction_on_children h child
termination_by sizeOf node
decreasing_by exact sizeOf_lt_of_mem_children ‹_›

/-! ### The recursive walk -/

mutual
/-- The jobs that run at a node and below it: child by child in a flow, and at any other node that node alone. -/
def preorder : FlowNode → List FlowNode
  | ⟨id, type?, status, properties, children⟩ =>
    if type? == some flowType then preorderAll children
    else if status != disabled then [⟨id, type?, status, properties, children⟩]
    else []
def preorderAll : List FlowNode → List FlowNode
  | [] => []
  | node :: rest => preorder node ++ preorderAll rest
end

theorem preorderAll_eq (nodes : List FlowNode) : preorderAll nodes = nodes.flatMap preorder := by
  induction nodes with
  | nil => rfl
  | cons node rest ih => rw [preorderAll, ih, List.flatMap_cons]

theorem preorder_eq (node : FlowNode) :
    node.preorder =
      if node.isFlow then node.children.flatMap preorder else if node.isEnabled then [node] else [] := by
  rw [← preorderAll_eq]
  cases node
  rfl

theorem preorder_of_flow {node : FlowNode} (h : node.isFlow = true) : node.preorder = node.children.flatMap preorder := by
  rw [preorder_eq, if_pos h]

theorem preorder_of_job {node : FlowNode} (h : node.isFlow = false) :
    node.preorder = if node.isEnabled then [node] else [] := by
  rw [preorder_eq, h, if_neg Bool.false_ne_true]

theorem walk_eq (stack : List FlowNode) : walk stack = stack.flatMap preorder := by
  fun_induction walk stack with
  | case1 => rfl
  | case2 node rest hflow ih => rw [ih, List.flatMap_append, List.flatMap_cons, preorder_of_flow hflow]
  | case3 node rest hjob henabled ih =>
    rw [ih, List.flatMap_cons, preorder_eq node, if_neg hjob, if_pos henabled]
    rfl
  | case4 node rest hjob hdisabled ih =>
    rw [ih, List.flatMap_cons, preorder_eq node, if_neg hjob, if_neg hdisabled]
    rfl

theorem enabledJobs_eq_preorder (flow : FlowNode) : flow.enabledJobs = flow.preorder := by
  unfold enabledJobs
  rw [walk_eq, List.flatMap_cons, List.flatMap_nil, List.append_nil]

/-! ### The nodes that are reached -/

/-- A path of places among children leads from a node to another, through flows only. -/
inductive Reaches : FlowNode → List Nat → FlowNode → Prop where
  | here (node : FlowNode) : Reaches node [] node
  | inside {node child found : FlowNode} {i : Nat} {path : List Nat} (hflow : node.isFlow = true)
      (hchild : node.children[i]? = some child) (h : Reaches child path found) : Reaches node (i :: path) found

/-- Whether a node is a job that runs. -/
def runs (node : FlowNode) : Bool :=
  !node.isFlow && node.isEnabled

mutual
/-- The nodes that are reached, each after its path, in the order of the recursive walk. -/
def visited : FlowNode → List (List Nat × FlowNode)
  | ⟨id, type?, status, properties, children⟩ =>
    ([], ⟨id, type?, status, properties, children⟩) ::
      if type? == some flowType then visitedFrom 0 children else []
def visitedFrom : Nat → List FlowNode → List (List Nat × FlowNode)
  | _, [] => []
  | i, node :: rest => (visited node).map (fun (path, found) => (i :: path, found)) ++ visitedFrom (i + 1) rest
end

theorem visited_eq (node : FlowNode) :
    node.visited = ([], node) :: if node.isFlow then visitedFrom 0 node.children else [] := by
  cases node
  rfl

theorem mem_visitedFrom {nodes : List FlowNode} {start : Nat} {path : List Nat} {found : FlowNode} :
    (path, found) ∈ visitedFrom start nodes ↔
      ∃ i rest child, path = (start + i) :: rest ∧ nodes[i]? = some child ∧ (rest, found) ∈ child.visited := by
  induction nodes generalizing start with
  | nil => simp [visitedFrom]
  | cons node nodes ih =>
    rw [visitedFrom, List.mem_append, List.mem_map, ih]
    constructor
    · rintro (⟨⟨rest, _⟩, hmem, heq⟩ | ⟨i, rest, child, rfl, hchild, hmem⟩)
      · cases heq
        exact ⟨0, rest, node, rfl, rfl, hmem⟩
      · exact ⟨i + 1, rest, child, by rw [Nat.add_assoc, Nat.add_comm 1], hchild, hmem⟩
    · rintro ⟨_ | i, rest, child, rfl, hchild, hmem⟩
      · cases hchild
        exact Or.inl ⟨(rest, found), hmem, rfl⟩
      · exact Or.inr ⟨i, rest, child, by rw [Nat.add_assoc, Nat.add_comm 1], hchild, hmem⟩

theorem mem_visited {flow : FlowNode} {path : List Nat} {found : FlowNode} :
    (path, found) ∈ flow.visited ↔ Reaches flow path found := by
  induction path generalizing flow with
  | nil =>
    rw [visited_eq, List.mem_cons]
    constructor
    · rintro (heq | hmem)
      · cases heq
        exact .here _
      · split at hmem
        · obtain ⟨_, _, _, heq, -⟩ := mem_visitedFrom.mp hmem
          cases heq
        · cases hmem
    · rintro ⟨⟩
      exact Or.inl rfl
  | cons i path ih =>
    rw [visited_eq, List.mem_cons]
    constructor
    · rintro (heq | hmem)
      · cases heq
      · split at hmem
        · next hflow =>
          obtain ⟨j, rest, child, heq, hchild, hmem⟩ := mem_visitedFrom.mp hmem
          rw [Nat.zero_add] at heq
          cases heq
          exact .inside hflow hchild (ih.mp hmem)
        · cases hmem
    · rintro (_ | ⟨hflow, hchild, h⟩)
      refine Or.inr ?_
      rw [if_pos hflow]
      exact mem_visitedFrom.mpr ⟨i, path, _, by rw [Nat.zero_add], hchild, ih.mpr h⟩

theorem ascending_visitedFrom {nodes : List FlowNode}
    (h : ∀ node ∈ nodes, (node.visited.map Prod.fst).Pairwise (· < ·)) (start : Nat) :
    ((visitedFrom start nodes).map Prod.fst).Pairwise (· < ·) := by
  induction nodes generalizing start with
  | nil => exact .nil
  | cons node nodes ih =>
    rw [visitedFrom, List.map_append, List.map_map, List.pairwise_append]
    refine ⟨?_, ih (fun other hother => h other (List.mem_cons_of_mem _ hother)) _, ?_⟩
    · have hfirst := List.pairwise_map.mp (h node List.mem_cons_self)
      exact List.pairwise_map.mpr (hfirst.imp fun hlt => List.cons_lt_cons_iff.mpr (Or.inr ⟨rfl, hlt⟩))
    · rintro path hpath other hother
      obtain ⟨⟨rest, found⟩, -, rfl⟩ := List.mem_map.mp hpath
      obtain ⟨⟨_, found'⟩, hmem, rfl⟩ := List.mem_map.mp hother
      obtain ⟨i, rest', -, rfl, -⟩ := mem_visitedFrom.mp hmem
      exact List.cons_lt_cons_iff.mpr (Or.inl (by omega))

/-- The paths to the nodes ascend, so no node is listed twice. -/
theorem ascending_visited (flow : FlowNode) : (flow.visited.map Prod.fst).Pairwise (· < ·) := by
  induction flow using induction_on_children with
  | h node ih =>
    rw [visited_eq]
    split
    · refine List.pairwise_cons.mpr ⟨fun path hpath => ?_, ascending_visitedFrom ih 0⟩
      obtain ⟨⟨_, found⟩, hmem, rfl⟩ := List.mem_map.mp hpath
      obtain ⟨i, rest, -, rfl, -⟩ := mem_visitedFrom.mp hmem
      exact List.nil_lt_cons _ _
    · exact List.pairwise_singleton _ _

theorem preorderAll_eq_filter {nodes : List FlowNode}
    (h : ∀ node ∈ nodes, node.preorder = (node.visited.map Prod.snd).filter runs) (start : Nat) :
    nodes.flatMap preorder = ((visitedFrom start nodes).map Prod.snd).filter runs := by
  induction nodes generalizing start with
  | nil => rfl
  | cons node nodes ih =>
    rw [List.flatMap_cons, h node List.mem_cons_self, visitedFrom, List.map_append, List.filter_append, List.map_map,
      ih (fun other hother => h other (List.mem_cons_of_mem _ hother)) (start + 1)]
    rfl

/-- The recursive walk finds those of the nodes reached that are jobs and run. -/
theorem preorder_eq_filter (flow : FlowNode) : flow.preorder = (flow.visited.map Prod.snd).filter runs := by
  induction flow using induction_on_children with
  | h node ih =>
    rw [preorder_eq, visited_eq]
    cases hflow : node.isFlow with
    | true =>
      rw [if_pos rfl, if_pos rfl, List.map_cons, List.filter_cons_of_neg (by simp [runs, hflow])]
      exact preorderAll_eq_filter ih 0
    | false =>
      rw [if_neg Bool.false_ne_true, if_neg Bool.false_ne_true, List.map_cons, List.map_nil]
      cases henabled : node.isEnabled <;> simp [runs, hflow, henabled]

end FlowNode

/-! ### One turn after the other -/

/-- A traversal under way: the nodes to be taken, the next one first, and the jobs found so far. -/
structure Traversal where
  stack : List FlowNode
  found : List FlowNode

namespace Traversal

open FlowNode

def start (flow : FlowNode) : Traversal :=
  ⟨[flow], []⟩

/-- Takes the next node, if there is one. -/
def turn (t : Traversal) : Traversal :=
  match t.stack with
  | [] => t
  | node :: rest =>
    if node.isFlow then ⟨node.children ++ rest, t.found⟩
    else if node.isEnabled then ⟨rest, t.found ++ [node]⟩
    else ⟨rest, t.found⟩

/-- The nodes that are still to be taken, those below the stack counted in. -/
def pending (t : Traversal) : Nat :=
  (t.stack.map fun node => node.visited.length).sum

/-- The jobs found so far and those that the walk of the stack will find. -/
def outcome (t : Traversal) : List FlowNode :=
  t.found ++ walk t.stack

theorem length_visitedFrom (nodes : List FlowNode) (start : Nat) :
    (visitedFrom start nodes).length = (nodes.map fun node => node.visited.length).sum := by
  induction nodes generalizing start with
  | nil => rfl
  | cons node rest ih => rw [visitedFrom, List.length_append, List.length_map, ih, List.map_cons, List.sum_cons]

theorem length_visited (node : FlowNode) :
    node.visited.length = (if node.isFlow then (node.children.map fun child => child.visited.length).sum else 0) + 1 := by
  rw [visited_eq, List.length_cons]
  cases node.isFlow with
  | true => rw [if_pos rfl, if_pos rfl, length_visitedFrom]
  | false => rfl

theorem stack_eq_nil_iff {t : Traversal} : t.stack = [] ↔ t.pending = 0 := by
  obtain ⟨_ | ⟨node, rest⟩, found⟩ := t
  · exact iff_of_true rfl rfl
  · refine iff_of_false (List.cons_ne_nil _ _) ?_
    unfold pending
    rw [List.map_cons, List.sum_cons, length_visited]
    omega

/-- A turn takes one node. -/
theorem pending_turn (t : Traversal) : t.turn.pending = t.pending - 1 := by
  obtain ⟨_ | ⟨node, rest⟩, found⟩ := t
  · rfl
  · unfold turn pending
    dsimp only
    rw [List.map_cons, List.sum_cons, length_visited]
    cases node.isFlow with
    | true =>
      rw [if_pos rfl, if_pos rfl, List.map_append, List.sum_append]
      omega
    | false =>
      rw [if_neg Bool.false_ne_true, if_neg Bool.false_ne_true]
      cases node.isEnabled <;> simp

/-- A turn loses no job and changes the place of none. -/
theorem outcome_turn (t : Traversal) : t.turn.outcome = t.outcome := by
  obtain ⟨_ | ⟨node, rest⟩, found⟩ := t
  · rfl
  · unfold turn outcome
    dsimp only
    rw [walk_eq (node :: rest), List.flatMap_cons, preorder_eq]
    cases node.isFlow with
    | true => rw [if_pos rfl, if_pos rfl, walk_eq, List.flatMap_append]
    | false =>
      rw [if_neg Bool.false_ne_true, if_neg Bool.false_ne_true]
      cases node.isEnabled <;> simp [walk_eq]

theorem pending_turns (n : Nat) (t : Traversal) : (turn^[n] t).pending = t.pending - n := by
  induction n generalizing t with
  | zero => rfl
  | succ n ih =>
    rw [Function.iterate_succ_apply, ih, pending_turn]
    omega

theorem outcome_turns (n : Nat) (t : Traversal) : (turn^[n] t).outcome = t.outcome := by
  induction n generalizing t with
  | zero => rfl
  | succ n ih => rw [Function.iterate_succ_apply, ih, outcome_turn]

theorem pending_start (flow : FlowNode) : (start flow).pending = flow.visited.length :=
  Nat.add_zero _

/-- A traversal ends after as many turns as nodes are reached, with the jobs of the flow. -/
theorem turns_visited (flow : FlowNode) : turn^[flow.visited.length] (start flow) = ⟨[], flow.enabledJobs⟩ := by
  have hpending := pending_turns flow.visited.length (start flow)
  have houtcome := outcome_turns flow.visited.length (start flow)
  rw [pending_start, Nat.sub_self] at hpending
  have hstack := stack_eq_nil_iff.mpr hpending
  generalize turn^[flow.visited.length] (start flow) = last at hstack houtcome
  obtain ⟨stack, found⟩ := last
  subst hstack
  unfold outcome at houtcome
  rw [walk, List.append_nil] at houtcome
  exact congrArg _ houtcome

theorem stack_ne_nil (flow : FlowNode) {n : Nat} (h : n < flow.visited.length) : (turn^[n] (start flow)).stack ≠ [] := by
  rw [Ne, stack_eq_nil_iff, pending_turns, pending_start]
  omega

end Traversal

/-! ### Changes within a flow -/

namespace FlowNode

def withChildren (node : FlowNode) (children : List FlowNode) : FlowNode :=
  { node with children }

@[simp] theorem isEnabled_withChildren (node : FlowNode) (children : List FlowNode) :
    (node.withChildren children).isEnabled = node.isEnabled := rfl

/-- A node without what hangs below it. -/
def bare (node : FlowNode) : FlowNode :=
  node.withChildren []

/-- The tree with the node at a path replaced. Where the path leads nowhere, nothing is. -/
def put : FlowNode → List Nat → FlowNode → FlowNode
  | _, [], new => new
  | node, i :: path, new => node.withChildren (node.children.modify i fun child => child.put path new)

theorem put_nil (node new : FlowNode) : node.put [] new = new := by
  cases node
  rfl

theorem put_cons (node : FlowNode) (i : Nat) (path : List Nat) (new : FlowNode) :
    node.put (i :: path) new = node.withChildren (node.children.modify i fun child => child.put path new) := by
  cases node
  rfl

theorem exists_split {node child : FlowNode} {i : Nat} (h : node.children[i]? = some child) :
    ∃ before after, node.children = before ++ child :: after ∧
      ∀ path new, node.put (i :: path) new = node.withChildren (before ++ child.put path new :: after) := by
  obtain ⟨hlt, rfl⟩ := List.getElem?_eq_some_iff.mp h
  refine ⟨node.children.take i, node.children.drop (i + 1), ?_, fun path new => ?_⟩
  · rw [List.getElem_cons_drop, List.take_append_drop]
  · rw [put_cons, List.modify_eq_take_cons_drop hlt]

theorem preorder_of_split {node child : FlowNode} (hflow : node.isFlow = true) {before after : List FlowNode}
    (h : node.children = before ++ child :: after) :
    node.preorder = before.flatMap preorder ++ (child.preorder ++ after.flatMap preorder) := by
  rw [preorder_of_flow hflow, h, List.flatMap_append, List.flatMap_cons]

/-- What is found at and below a node that is reached stands together, and what replaces the node is found in
    its place. -/
theorem Reaches.segment {flow old : FlowNode} {path : List Nat} (h : Reaches flow path old) :
    ∃ before after, flow.preorder = before ++ old.preorder ++ after ∧
      ∀ new, (flow.put path new).preorder = before ++ new.preorder ++ after := by
  induction h with
  | here node =>
    refine ⟨[], [], by simp, fun new => ?_⟩
    rw [put_nil, List.nil_append, List.append_nil]
  | @inside node child found i path hflow hchild h ih =>
    obtain ⟨before, after, hbefore, hput⟩ := ih
    obtain ⟨left, right, hsplit, hnode⟩ := exists_split hchild
    refine ⟨left.flatMap preorder ++ before, after ++ right.flatMap preorder, ?_, fun new => ?_⟩
    · rw [preorder_of_split hflow hsplit, hbefore]
      simp only [List.append_assoc]
    · rw [hnode, @preorder_of_split (node.withChildren _) _ hflow _ _ rfl, hput]
      simp only [List.append_assoc]

/-- What is not reached makes no difference to the jobs themselves. -/
theorem preorder_put_of_not_reached {flow : FlowNode} {path : List Nat} (h : ∀ old, ¬Reaches flow path old)
    (new : FlowNode) : (flow.put path new).preorder.map bare = flow.preorder.map bare := by
  induction path generalizing flow with
  | nil => exact absurd (.here flow) (h flow)
  | cons i path ih =>
    cases hflow : flow.isFlow with
    | false =>
      rw [put_cons, @preorder_of_job (flow.withChildren _) hflow, preorder_of_job hflow, isEnabled_withChildren]
      cases flow.isEnabled <;> rfl
    | true =>
      cases hchild : flow.children[i]? with
      | none =>
        have hself : flow.put (i :: path) new = flow := by
          rw [put_cons, List.modify_eq_self (List.getElem?_eq_none_iff.mp hchild)]
          cases flow
          rfl
        rw [hself]
      | some child =>
        have hbelow := ih fun old hold => h old (.inside hflow hchild hold)
        obtain ⟨left, right, hsplit, hnode⟩ := exists_split hchild
        rw [hnode, @preorder_of_split (flow.withChildren _) _ hflow _ _ rfl, preorder_of_split hflow hsplit]
        simp only [List.map_append, hbelow]

/-- The nodes that a traversal of a flow takes, each after its path, and the jobs that it finds. -/
structure Traversed (flow : FlowNode) (taken : List (List Nat × FlowNode)) (jobs : List FlowNode) : Prop where
  ascending : (taken.map Prod.fst).Pairwise (· < ·)
  reached : ∀ path node, (path, node) ∈ taken ↔ Reaches flow path node
  ended : Traversal.turn^[taken.length] (.start flow) = ⟨[], jobs⟩
  underway : ∀ n < taken.length, (Traversal.turn^[n] (.start flow)).stack ≠ []
  jobs_eq : jobs = (taken.map Prod.snd).filter runs

/-- The jobs of a flow are those of the recursive walk, in its order. The traversal ends: it takes each node that
    is reached through flows exactly once, in the order of the paths, and finds those that are jobs and run.
    What replaces a node that is reached is found in its place and the rest stays; what replaces a node below
    a job is not found. -/
theorem traversal_is_recursive_walk (flow : FlowNode) :
    flow.enabledJobs = flow.preorder ∧
    (∃ taken, Traversed flow taken flow.enabledJobs) ∧
    (∀ path old, Reaches flow path old → ∃ before after, flow.enabledJobs = before ++ old.enabledJobs ++ after ∧
      ∀ new, (flow.put path new).enabledJobs = before ++ new.enabledJobs ++ after) ∧
    ∀ path, (∀ old, ¬Reaches flow path old) →
      ∀ new, (flow.put path new).enabledJobs.map bare = flow.enabledJobs.map bare := by
  refine ⟨enabledJobs_eq_preorder flow, ⟨flow.visited, ?_⟩, fun path old h => ?_, fun path h new => ?_⟩
  · exact {
      ascending := ascending_visited flow
      reached := fun _ _ => mem_visited
      ended := Traversal.turns_visited flow
      underway := fun _ => Traversal.stack_ne_nil flow
      jobs_eq := (enabledJobs_eq_preorder flow).trans (preorder_eq_filter flow) }
  · simp only [enabledJobs_eq_preorder]
    exact h.segment
  · simp only [enabledJobs_eq_preorder]
    exact preorder_put_of_not_reached h new

/-- A flow within a flow, with a job that does not run. -/
def embeddedFlow : FlowNode where
  id := "embedded"
  type? := some flowType
  children := [{ id := "load", type? := some "hive" }, { id := "report", type? := some "pig", status := disabled }]

/-- A flow with a job that has something below it. -/
def nestedFlow : FlowNode where
  id := "daily"
  type? := some flowType
  children := [{ id := "extract", type? := some "spark" }, embeddedFlow,
    { id := "notify", type? := some "command", children := [{ id := "stray", type? := some "spark" }] }]

theorem traversal_is_recursive_walk_sample :
    nestedFlow.enabledJobs.map FlowNode.id = ["extract", "load", "notify"] ∧
      (∃ before after, nestedFlow.enabledJobs = before ++ embeddedFlow.enabledJobs ++ after ∧
        (nestedFlow.put [1] nestedFlow).enabledJobs = before ++ nestedFlow.enabledJobs ++ after) ∧
      (nestedFlow.put [2, 0] nestedFlow).enabledJobs.map bare = nestedFlow.enabledJobs.map bare := by
  obtain ⟨hwalk, -, hreplaced, hhidden⟩ := traversal_is_recursive_walk nestedFlow
  refine ⟨?_, ?_, hhidden [2, 0] (fun old h => ?_) nestedFlow⟩
  · rw [hwalk]
    rfl
  · obtain ⟨before, after, hbefore, hput⟩ := hreplaced [1] embeddedFlow (.inside rfl rfl (.here _))
    exact ⟨before, after, hbefore, hput nestedFlow⟩
  · -- The second step would lead through a job.
    obtain _ | ⟨-, hchild, h⟩ := h
    cases hchild
    obtain _ | ⟨hflow, -, -⟩ := h
    cases hflow

end FlowNode

end ImageRollout
