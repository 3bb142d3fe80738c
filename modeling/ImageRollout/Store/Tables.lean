import ImageRollout.Names
import ImageRollout.Schema.Plan
import ImageRollout.Store.VersionState
import ImageRollout.Store.Writer

/-! The tables of the database: image types, their versions, plans, and the shares of plans. Rows hold
    what was written into them; whether a share makes an entry is checked when it is read. What no statement
    asks for the engine of the database settles: the order in which rows are found, how names are compared,
    and which rows it takes. -/

namespace ImageRollout

structure TypeRow where
  name : String
  description : Option String := none
  deriving DecidableEq, Repr

/-- A version, with the word for its state. -/
structure VersionRow where
  id : Nat
  imageType : String
  version : String
  state : String
  /-- When it was made, in microseconds from an instant that is the same for all. -/
  createdAt : Int
  deriving DecidableEq, Repr

/-- A plan without its shares. -/
structure PlanRow where
  number : Nat
  imageType : String
  name : String
  description : Option String := none
  active : Bool
  createdBy : Option String := none
  modifiedBy : Option String := none
  deriving DecidableEq, Repr

/-- A share of the plan of some number, at a position in it. -/
structure ShareRow where
  plan : Nat
  position : Int
  version : String
  percentage : Int
  tag : String
  createdBy : Option String := none
  modifiedBy : Option String := none
  deriving DecidableEq, Repr

/-- The share as a document, in the form of an entry. -/
def ShareRow.document (row : ShareRow) : Json :=
  .obj [("version", .str row.version), ("rampup_percentage", .int row.percentage),
    ("stability_tag", .str row.tag), ("created_by", .ofText? row.createdBy),
    ("modified_by", .ofText? row.modifiedBy)]

def PlanRow.id (row : PlanRow) : PlanId :=
  .made row.number

/-- What a database settles by itself. -/
structure Engine where
  /-- The active plans of image types that are asked for, in the order in which they are found. -/
  planOrder : List String → List PlanRow → List PlanRow
  planOrder_perm : ∀ names rows, (planOrder names rows).Perm rows
  /-- Names as they are ordered. -/
  nameOrder : List String → List String
  nameOrder_perm : ∀ names, (nameOrder names).Perm names
  /-- Why plans with their shares are not taken: a text, say, may be longer than its column is wide. -/
  objection? : List PlanRow → List ShareRow → Option String

/-- The engine of a small database. It takes all rows, and it compares names by code point. Up to three image
    types it looks up one after the other, and for more of them it passes over the plans once. -/
def Engine.small : Engine where
  planOrder names rows :=
    if names.length ≤ 3 then rows.mergeSort fun a b => decide (a.imageType ≤ b.imageType) else rows
  planOrder_perm names rows := by
    split
    · exact List.mergeSort_perm _ _
    · exact .refl _
  nameOrder names := names.mergeSort fun a b => decide (a ≤ b)
  nameOrder_perm names := List.mergeSort_perm _ _
  objection? _ _ := none

structure Tables where
  types : List TypeRow := []
  versions : List VersionRow := []
  plans : List PlanRow := []
  shares : List ShareRow := []
  engine : Engine := .small

/-- A name that is not empty, else another one. -/
def nameOr (name other : Option String) : Option String :=
  match name with
  | none | some "" => other
  | some name => some name

/-- The shares for the entries of a plan from a position on. An entry that names nobody is in the name
    of the user. -/
def sharesFor (plan : Nat) (user : Option String) : Nat → List Entry → List ShareRow
  | _, [] => []
  | position, e :: rest =>
    ⟨plan, position, e.version.val, e.share.val, e.stability.name, nameOr e.createdBy user,
      nameOr e.modifiedBy user⟩ :: sharesFor plan user (position + 1) rest

namespace Tables

def type? (t : Tables) (name : String) : Option TypeRow :=
  t.types.find? fun row => row.name = name

def typeNames (t : Tables) : List String :=
  t.engine.nameOrder (t.types.map TypeRow.name)

/-- Adds an image type, or gives it another description. -/
def putType (name : String) (description : Option String) (t : Tables) : Tables :=
  if (t.type? name).isSome then
    { t with types := t.types.map fun row => if row.name = name then { row with description } else row }
  else { t with types := t.types ++ [⟨name, description⟩] }

/-- Adds an image type without a description, unless it is there. -/
def ensureType (name : String) (t : Tables) : Tables :=
  if (t.type? name).isSome then t else { t with types := t.types ++ [⟨name, none⟩] }

/-- Adds a version, and its image type where that is missing. -/
def putVersion (row : VersionRow) (t : Tables) : Tables :=
  let t := t.ensureType row.imageType
  { t with versions := t.versions ++ [row] }

/-- Gives a version another state. -/
def setState (imageType version state : String) (t : Tables) : Tables :=
  { t with
    versions := t.versions.map fun row =>
      if row.imageType = imageType ∧ row.version = version then { row with state } else row }

/-- Whether one version was made after another. Of versions of one time, the one with the greater number
    counts as later. -/
def madeAfter (a b : VersionRow) : Bool :=
  decide (b.createdAt < a.createdAt ∨ (b.createdAt = a.createdAt ∧ b.id ≤ a.id))

/-- The active versions of an image type, the latest first. -/
def activeVersions (t : Tables) (imageType : String) : List VersionRow :=
  (t.versions.filter fun row => row.imageType = imageType ∧ row.state = VersionState.active.name).mergeSort madeAfter

def latestActive (t : Tables) (imageTypes : List String) : List ActiveVersion :=
  (Names.ordered imageTypes).filterMap fun imageType =>
    (t.activeVersions imageType).head?.map fun row => ⟨imageType, row.version⟩

/-- The active plans of image types, in the order in which they are found. -/
def activePlans (t : Tables) (imageTypes : List String) : List PlanRow :=
  t.engine.planOrder imageTypes (t.plans.filter fun row => row.active ∧ imageTypes.contains row.imageType)

def sharesOf (t : Tables) (plan : Nat) : List ShareRow :=
  (t.shares.filter fun row => row.plan = plan).mergeSort fun a b => decide (a.position ≤ b.position)

/-- The entries of a plan. The first share that makes no entry is reported. -/
def entries (t : Tables) (plan : Nat) : Except (List Issue) (List Entry) :=
  (t.sharesOf plan).mapM fun row =>
    match Entry.ofJson row.document with
    | .accepted entry => .ok entry
    | .refused issues => .error issues

/-- A plan as resolution reads it. -/
def plan (t : Tables) (row : PlanRow) : Except (List Issue) Plan :=
  (t.entries row.number).map fun entries =>
    { imageType := row.imageType, active := row.active, entries, id := some row.id, name := some row.name }

/-- Why the plans with their shares are not taken. -/
def objection? (t : Tables) : Option String :=
  t.engine.objection? t.plans t.shares

/-- Adds a plan with its shares, and its image type where that is missing. -/
def putPlan (imageType name : String) (active : Bool) (shares : List (Int × String × Int × String)) (t : Tables) :
    Tables :=
  let number := t.plans.length
  let t := t.ensureType imageType
  { t with
    plans := t.plans ++ [⟨number, imageType, name, none, active, none, none⟩]
    shares := t.shares ++ shares.map fun (position, version, percentage, tag) =>
      ⟨number, position, version, percentage, tag, none, none⟩ }

/-- Makes the active plans of an image type inactive, in the name of a user. -/
def deactivate (imageType : String) (user : Option String) (t : Tables) : Tables :=
  { t with
    plans := t.plans.map fun row =>
      if row.imageType = imageType ∧ row.active then { row with active := false, modifiedBy := user } else row }

/-- Adds a plan of a given number with its shares. -/
def insertPlan (number : Nat) (plan : NewPlan) (t : Tables) : Tables :=
  { t with
    plans := t.plans ++
      [⟨number, plan.imageType, plan.name, plan.description, plan.activate, plan.createdBy, plan.createdBy⟩]
    shares := t.shares ++ sharesFor number plan.createdBy 0 plan.entries }

/-- Gives a plan other shares, in the name of a user. -/
def replaceShares (number : Nat) (entries : List Entry) (user : Option String) (t : Tables) : Tables :=
  { t with
    plans := t.plans.map fun row => if row.number = number then { row with modifiedBy := user } else row
    shares := (t.shares.filter fun row => row.plan ≠ number) ++ sharesFor number user 0 entries }

end Tables

end ImageRollout
