import ImageRollout.Resolution.Source
import ImageRollout.Store.Session

/-! A store in a database. Every operation is a few statements of a session; a plan is written as a
    whole, and what was written before a statement failed is given up. A new plan is read again once it is
    stored. -/

namespace ImageRollout.Database

open Session

def getType (name : String) : Action Session (Option TypeRow) := do
  execute "get image type"
  query fun t => t.type? name

/-- The row of an image type that has to be there. -/
def needType (name : String) : Action Session TypeRow := do
  match ← getType name with
  | some row => pure row
  | none => Action.fail (.domain (.unknownImageType name))

def typeNames : Action Session (List String) := do
  execute "list image types"
  query Tables.typeNames

/-- The plan of an image type that comes last. -/
def lastOf (plans : List Plan) (imageType : String) : Option Plan :=
  plans.reverse.find? fun plan => plan.imageType = imageType

/-- The active plans of image types, in code point order of the types. Without image types there is
    nothing to ask. -/
def activePlans (imageTypes : List String) : Action Session (List (String × Plan)) :=
  let names := Names.ordered imageTypes
  if names.isEmpty then pure []
  else do
    execute "fetch rampup plans"
    let plans ← query fun t => (t.activePlans names).mapM t.plan
    match plans with
    | .error issues => Action.fail (.badForm issues)
    | .ok plans =>
      let found := Names.ordered (plans.map Plan.imageType)
      Action.report [.plansLoaded found]
      pure (found.filterMap fun imageType => (lastOf plans imageType).map fun plan => (imageType, plan))

def activePlan? (imageType : String) : Action Session (Option Plan) := do
  let plans ← activePlans [imageType]
  pure (plans.lookup imageType)

/-- The latest active versions of image types. Without image types there is nothing to ask. -/
def latestActive (imageTypes : List String) : Action Session (List ActiveVersion) :=
  if imageTypes.isEmpty then pure []
  else do
    execute "fetch latest active versions"
    let rows ← query fun t => t.latestActive imageTypes
    Action.report [.versionsLoaded (rows.map ActiveVersion.imageType)]
    pure rows

/-- Writes a plan with its shares, in the place of the active one where it is to be active. -/
def writePlan (number : Nat) (plan : NewPlan) : Action Session Unit := do
  if plan.activate then
    execute "create rampup plan"
    edit (Tables.deactivate plan.imageType plan.createdBy)
  edit (Tables.insertPlan number plan)
  commit "create rampup plan"

def createPlan (plan : NewPlan) : Action Session PlanId := do
  let _ ← needType plan.imageType
  let number ← query fun t => t.plans.length
  Action.undoing rollback (writePlan number plan)
  refresh
  Action.report [.planStored (.made number) plan.imageType plan.activate]
  pure (.made number)

/-- The row of the active plan of an image type, which has to be there. -/
def needActivePlan (imageType : String) : Action Session PlanRow := do
  execute "get active rampup plan"
  match ← query fun t => (t.activePlans [imageType]).head? with
  | some row => pure row
  | none => Action.fail (.domain (.noActivePlan imageType))

/-- Gives the active plan of an image type other entries. -/
def updatePlan (imageType : String) (entries : List Entry) (user : Option String) : Action Session PlanId := do
  let row ← needActivePlan imageType
  edit (Tables.replaceShares row.number entries user)
  Action.undoing rollback (commit "update rampup plan")
  Action.report [.entriesStored row.id imageType]
  pure row.id

def writer : PlanWriter Session where
  create := createPlan
  update := updatePlan
  activePlan? := activePlan?

def source : Source Session where
  activePlans imageTypes := do
    let plans ← activePlans imageTypes
    pure (.answered (plans.map fun (imageType, plan) => (imageType, some plan)))
  latestActive imageTypes := do
    let rows ← latestActive imageTypes
    pure (.answered (some rows))
  typeNames? := some do
    let names ← typeNames
    pure (.answered names)

end ImageRollout.Database
