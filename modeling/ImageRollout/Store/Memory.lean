import ImageRollout.Resolution.Source
import ImageRollout.Store.VersionState
import ImageRollout.Store.Writer

/-! A store in memory: image types, the versions that were registered for them, and their plans. Plans
    are kept under image types, in the order they were made, the inactive ones too. -/

namespace ImageRollout

/-- A registered version. The sequence numbers say which of two was registered later. -/
structure Registration where
  imageType : String
  version : String
  state : VersionState
  sequence : Nat
  deriving DecidableEq, Repr

/-- A plan in the store. -/
structure StoredPlan where
  /-- The image type that it is kept under, whatever image type the plan itself names. -/
  key : String
  number : Nat
  imageType : String
  name : String
  active : Bool
  entries : List Entry
  deriving DecidableEq, Repr

def StoredPlan.id (p : StoredPlan) : PlanId :=
  .made p.number

def StoredPlan.plan (p : StoredPlan) : Plan where
  imageType := p.imageType
  active := p.active
  entries := p.entries
  id := some p.id
  name := some p.name

/-- What the store holds. -/
structure Memory where
  /-- The image types with their descriptions. -/
  types : List (String × Option String) := []
  versions : List Registration := []
  plans : List StoredPlan := []
  deriving DecidableEq, Repr

namespace Memory

def isRegistered (m : Memory) (imageType : String) : Bool :=
  (m.types.lookup imageType).isSome

/-- Registers an image type, or gives it another description. -/
def addType (name : String) (description : Option String) (m : Memory) : Memory :=
  if m.isRegistered name then
    { m with types := m.types.map fun (other, old) => (other, if other = name then description else old) }
  else { m with types := m.types ++ [(name, description)] }

/-- Registers an image type without a description, unless it is registered. -/
def ensureType (name : String) (m : Memory) : Memory :=
  if m.isRegistered name then m else { m with types := m.types ++ [(name, none)] }

/-- Registers a version, after the ones that there are. -/
def addVersion (imageType version : String) (state : VersionState) (m : Memory) : Memory :=
  { m with versions := m.versions ++ [⟨imageType, version, state, m.versions.length⟩] }

/-- Gives every registration of a version another state. -/
def setState (imageType version : String) (state : VersionState) (m : Memory) : Memory :=
  { m with
    versions := m.versions.map fun r =>
      if r.imageType = imageType ∧ r.version = version then { r with state } else r }

/-- The later one of a registration and another. -/
def later (newest : Option Registration) (r : Registration) : Option Registration :=
  match newest with
  | none => some r
  | some best => if best.sequence < r.sequence then some r else some best

/-- The active registration of an image type that was made last. -/
def newestActive? (m : Memory) (imageType : String) : Option Registration :=
  (m.versions.filter fun r => r.imageType = imageType ∧ r.state = .active).foldl later none

/-- The latest active versions of image types, in code point order of the types. -/
def latestActive (m : Memory) (imageTypes : List String) : List ActiveVersion :=
  (Names.ordered imageTypes).filterMap fun imageType =>
    (m.newestActive? imageType).map fun r => ⟨imageType, r.version⟩

def typeNames (m : Memory) : List String :=
  Names.ordered (m.types.map Prod.fst)

/-- The plans that are kept under an image type, in the order they were made. -/
def plansOf (m : Memory) (imageType : String) : List StoredPlan :=
  m.plans.filter fun p => p.key = imageType

def active? (m : Memory) (imageType : String) : Option StoredPlan :=
  (m.plansOf imageType).find? StoredPlan.active

def activePlans (m : Memory) (imageTypes : List String) : PlanAnswer :=
  (Names.ordered imageTypes).filterMap fun imageType =>
    (m.active? imageType).map fun p => (imageType, some p.plan)

/-- Makes the plans of an image type inactive. -/
def deactivate (imageType : String) (m : Memory) : Memory :=
  { m with plans := m.plans.map fun p => if p.key = imageType then { p with active := false } else p }

def addPlan (plan : NewPlan) (m : Memory) : Memory :=
  { m with
    plans := m.plans ++
      [⟨plan.imageType, m.plans.length, plan.imageType, plan.name, plan.activate, plan.entries⟩] }

/-- Gives the active plans of an image type other entries. -/
def replaceEntries (imageType : String) (entries : List Entry) (m : Memory) : Memory :=
  { m with
    plans := m.plans.map fun p => if p.key = imageType ∧ p.active then { p with entries } else p }

/-- Registers a version under the word for its state. The image type is registered even where the word
    is no state. -/
def register (imageType version stateName : String) : Action Memory Unit := do
  Action.change (ensureType imageType)
  match VersionState.ofName? stateName with
  | some state => Action.change (addVersion imageType version state)
  | none => Action.fail (.misuse (.unknownState stateName))

/-- Gives a version the state of a word. The word matters only where there is such a version. -/
def changeState (imageType version stateName : String) : Action Memory Unit := do
  let found ← Action.read fun m => m.versions.any fun r => r.imageType = imageType ∧ r.version = version
  match VersionState.ofName? stateName with
  | some state => Action.change (setState imageType version state)
  | none => if found then Action.fail (.misuse (.unknownState stateName)) else pure ()

/-- Stores a plan of a registered image type. -/
def createPlan (plan : NewPlan) : Action Memory PlanId := do
  if ← Action.read fun m => m.isRegistered plan.imageType then
    if plan.activate then Action.change (deactivate plan.imageType)
    let number ← Action.read fun m => m.plans.length
    Action.change (addPlan plan)
    pure (.made number)
  else Action.fail (.domain (.unknownImageType plan.imageType))

def updatePlan (imageType : String) (entries : List Entry) : Action Memory PlanId := do
  match ← Action.read fun m => m.active? imageType with
  | some plan =>
    Action.change (replaceEntries imageType entries)
    pure plan.id
  | none => Action.fail (.domain (.noActivePlan imageType))

def writer : PlanWriter Memory where
  create := createPlan
  update imageType entries _ := updatePlan imageType entries
  activePlan? imageType := Action.read fun m => (m.active? imageType).map StoredPlan.plan

/-- The store as a source of resolution. It always answers. -/
def source : Source Memory where
  activePlans imageTypes := Action.read fun m => .answered (m.activePlans imageTypes)
  latestActive imageTypes := Action.read fun m => .answered (some (m.latestActive imageTypes))
  typeNames? := some (Action.read fun m => .answered m.typeNames)

end Memory

end ImageRollout
