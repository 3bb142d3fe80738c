import ImageRollout.Proofs.Reached

/-! Operations on stores, from any state on. Besides the changes by which plans are checked before they are
    kept there are the calls to the stores themselves, which check nothing. All that an operation can do to
    the plans of a store is to add one, or to give an active one other entries. One that fails does nothing to
    them, but for a plan that a database stores and then refuses to give again. -/

namespace ImageRollout

open ImageRollout.Action

/-! ### Operations -/

/-- An operation on a store: a change, by which plans are checked before they are kept, or a call to the
    store itself, which checks nothing. -/
inductive Operation where
  | change (c : Change)
  | createPlan (plan : NewPlan)
  | updatePlan (imageType : String) (entries : List Entry) (user : Option String)

namespace Operation

def onMemory : Operation → Action Memory (Option PlanId)
  | change c => c.onMemory
  | createPlan plan => do
    let id ← Memory.writer.create plan
    pure (some id)
  | updatePlan imageType entries user => do
    let id ← Memory.writer.update imageType entries user
    pure (some id)

def onDatabase : Operation → Action Session (Option PlanId)
  | change c => c.onDatabase
  | createPlan plan => do
    let id ← Database.writer.create plan
    pure (some id)
  | updatePlan imageType entries user => do
    let id ← Database.writer.update imageType entries user
    pure (some id)

/-- The plan that the operation asks a store to add. -/
def adds? : Operation → Option NewPlan
  | change (.create draft user) => some (draft.stampNew user).toNewPlan
  | createPlan plan => some plan
  | _ => none

/-- The image type that the operation makes a new active plan for. -/
def activates? (op : Operation) : Option String :=
  op.adds?.bind fun plan => if plan.activate then some plan.imageType else none

/-- The image type whose active plan the operation gives other entries, and these entries with the user in
    whose name they are given. -/
def rewrites? : Operation → Option (String × List Entry × Option String)
  | change (.update imageType draft user) => some (imageType, (draft.stampChange user).toEntries, user)
  | updatePlan imageType entries user => some (imageType, entries, user)
  | _ => none

theorem activates?_of_adds {op : Operation} {plan : NewPlan} (h : op.adds? = some plan) (hactivate : plan.activate = true) :
    op.activates? = some plan.imageType := by
  unfold activates?
  rw [h]
  exact if_pos hactivate

theorem rewrites?_of_adds {op : Operation} {plan : NewPlan} (h : op.adds? = some plan) : op.rewrites? = none := by
  cases op with
  | change c =>
    cases c with
    | create draft user => rfl
    | addType _ _ | addVersion _ | setState _ _ _ | update _ _ _ => cases h
  | createPlan plan => rfl
  | updatePlan _ _ _ => cases h

end Operation

/-! ### In memory -/

namespace Memory

/-- All that an operation can do to the plans of a store. -/
inductive Wrote (op : Operation) (m m' : Memory) : Prop where
  | nothing (h : m'.plans = m.plans)
  | plan {plan : NewPlan} (hop : op.adds? = some plan) (h : m' = m.withPlan plan)
  | entries {imageType : String} {entries : List Entry} {user : Option String}
      (hop : op.rewrites? = some (imageType, entries, user)) (h : m' = m.replaceEntries imageType entries)

theorem ends_onMemory (op : Operation) (m : Memory) :
    Ends op.onMemory m (fun _ => True) (fun _ m' => Wrote op m m') fun _ m' => m'.plans = m.plans := by
  cases op with
  | change c =>
    cases c with
    | addType name description => exact .change_bind (.pure (.nothing (plans_addType _ _ _)))
    | addVersion row =>
      have hensure := plans_ensureType row.imageType m
      refine Ends.bind (fun _ m' => m'.plans = m.plans) (.change_bind ?_) fun _ _ hm => .pure (.nothing hm)
      split
      · exact .change hensure
      · exact .fail hensure
    | setState imageType version word =>
      refine Ends.bind (fun _ m' => m'.plans = m.plans) (.read_bind ?_) fun _ _ hm => .pure (.nothing hm)
      split
      · exact .change rfl
      · split
        · exact .fail rfl
        · exact .pure rfl
    | create draft user =>
      refine Ends.bind _ ((ends_create draft user m).mono (fun _ he => he) (fun _ _ hv => hv)
        fun _ _ hf => congrArg plans hf) fun _ _ hm => .pure ?_
      exact .plan rfl hm.2.2
    | update imageType draft user =>
      refine Ends.bind _ ((ends_update imageType draft user m).mono (fun _ he => he) (fun _ _ hv => hv)
        fun _ _ hf => congrArg plans hf) fun _ _ hm => .pure ?_
      obtain ⟨-, -, -, hm⟩ := hm
      exact .entries rfl hm
  | createPlan plan =>
    refine Ends.bind _ ((ends_createPlan plan m).mono (fun _ he => he) (fun _ _ hv => hv)
      fun _ _ hf => congrArg plans hf.2.2) fun _ _ hm => .pure ?_
    exact .plan rfl hm.2.2
  | updatePlan imageType entries user =>
    refine Ends.bind _ ((ends_updatePlan imageType entries m).mono (fun _ he => he) (fun _ _ hv => hv)
      fun _ _ hf => congrArg plans hf.2.2) fun _ _ hm => .pure ?_
    obtain ⟨-, -, -, hm⟩ := hm
    exact .entries rfl hm

/-- Whatever comes of it, an operation leaves the store with what it can do to its plans. -/
theorem wrote_onMemory (op : Operation) (m : Memory) : Wrote op m (op.onMemory.run m).state :=
  Ends.state ((ends_onMemory op m).mono (fun _ he => he) (fun _ _ hwrote => hwrote) fun _ _ hplans => .nothing hplans)

/-- The store after operations. -/
def follow (m : Memory) (run : List Operation) : Memory :=
  run.foldl (fun m op => (op.onMemory.run m).state) m

theorem follow_append (m : Memory) (before after : List Operation) :
    m.follow (before ++ after) = (m.follow before).follow after :=
  List.foldl_append

end Memory

/-! ### In a database -/

namespace Tables

variable {t : Tables} {op : Operation}

/-- All that an operation can do to the plans of the tables. -/
inductive Wrote (op : Operation) (t t' : Tables) : Prop where
  | nothing (hplans : t'.plans = t.plans) (hshares : t'.shares = t.shares)
  | plan {plan : NewPlan} (hop : op.adds? = some plan) (h : t' = t.withPlan plan)
  | entries {row : PlanRow} {entries : List Entry} {user : Option String} (hrow : row ∈ t.plans)
      (hactive : row.active = true) (hop : op.rewrites? = some (row.imageType, entries, user))
      (h : t' = t.replaceShares row.number entries user)

/-- The row of an update is that of an active plan of the type. -/
theorem Wrote.update {imageType : String} {entries : List Entry} {user : Option String} {row : PlanRow}
    (hop : op.rewrites? = some (imageType, entries, user)) (hrow : (t.activePlans [imageType]).head? = some row) :
    Wrote op t (t.replaceShares row.number entries user) := by
  obtain ⟨hmem, hactive, htype⟩ := mem_activePlans.mp (List.mem_of_mem_head? hrow)
  obtain rfl := List.mem_singleton.mp htype
  exact .entries hmem hactive hop rfl

end Tables

namespace Database

variable {s : Session} {t : Tables}

theorem ends_onDatabase (hs : s.Rests t) (op : Operation) :
    Ends op.onDatabase s (fun _ => True) (fun _ s' => ∃ t', s'.Rests t' ∧ Tables.Wrote op t t') fun f s' =>
      s'.Rests t ∨ f.IsUnread ∧ ∃ plan, op.adds? = some plan ∧ s'.Rests (t.withPlan plan) := by
  have hrows : ∀ f : Tables → Tables, (f t).plans = t.plans → (f t).shares = t.shares →
      ∃ t', Session.Rests { s with committed := f s.committed, draft := f s.draft } t' ∧ Tables.Wrote op t t' :=
    fun f hplans hshares => ⟨f t, ⟨congrArg f hs.committed, congrArg f hs.draft⟩, .nothing hplans hshares⟩
  cases op with
  | change c =>
    cases c with
    | addType name description =>
      refine .change_bind (.pure (hrows _ ?_ ?_)) <;> unfold Tables.putType <;> split <;> rfl
    | addVersion row =>
      refine .change_bind (.pure (hrows _ ?_ ?_)) <;> unfold Tables.putVersion Tables.ensureType <;> dsimp only <;>
        split <;> rfl
    | setState imageType version state => exact .change_bind (.pure (hrows _ rfl rfl))
    | create draft user =>
      refine Ends.bind _ ((ends_create hs draft user).mono (fun _ he => he) (fun _ _ hv => hv) fun _ _ hf =>
        hf.imp And.right fun hstored => ⟨hstored.2.1, _, rfl, hstored.2.2.2⟩) fun _ s' hs' => .pure ?_
      exact ⟨_, hs'.2.2, .plan rfl rfl⟩
    | update imageType draft user =>
      refine Ends.bind _ ((ends_update hs imageType draft user).mono (fun _ he => he) (fun _ _ hv => hv) fun _ _ =>
        .inl) fun _ s' hs' => .pure ?_
      obtain ⟨-, row, hrow, hrests⟩ := hs'
      exact ⟨_, hrests, .update rfl hrow⟩
  | createPlan plan =>
    refine Ends.bind _ ((ends_createPlan hs plan).mono (fun _ he => he) (fun _ _ hv => hv) fun _ _ hf =>
      hf.imp And.right fun hstored => ⟨hstored.1, _, rfl, hstored.2.2⟩) fun _ s' hs' => .pure ?_
    exact ⟨_, hs'.2.2, .plan rfl rfl⟩
  | updatePlan imageType entries user =>
    refine Ends.bind _ ((ends_updatePlan hs imageType entries user).mono (fun _ he => he) (fun _ _ hv => hv)
      fun _ _ hf => .inl hf.2) fun _ s' hs' => .pure ?_
    obtain ⟨row, hrow, -, hrests⟩ := hs'
    exact ⟨_, hrests, .update rfl hrow⟩

/-- Whatever comes of it, an operation leaves the tables as they were, or with what it can do to them. -/
theorem wrote_onDatabase (hs : s.Rests t) (op : Operation) :
    ∃ t', (op.onDatabase.run s).state.Rests t' ∧ Tables.Wrote op t t' := by
  refine Ends.state (p := fun s' => ∃ t', s'.Rests t' ∧ Tables.Wrote op t t') ((ends_onDatabase hs op).mono
    (fun _ he => he) (fun _ _ hv => hv) ?_)
  rintro _ s' (hrests | ⟨-, plan, hop, hrests⟩)
  · exact ⟨t, hrests, .nothing rfl rfl⟩
  · exact ⟨_, hrests, .plan hop rfl⟩

/-- Operations lead from one session to another, in one session or in several, whatever statements the
    database refuses. -/
inductive Leads (s : Session) : List Operation → Session → Prop where
  | done : Leads s [] s
  | operation {s' : Session} {run : List Operation} (op : Operation) (h : Leads s run s') :
      Leads s (run ++ [op]) (op.onDatabase.run s').state
  | reopen {s' : Session} {run : List Operation} (fault : Option Fault) (h : Leads s run s') :
      Leads s run (.start s'.committed fault)

end Database

end ImageRollout
