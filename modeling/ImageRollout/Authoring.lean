import ImageRollout.Schema.Plan
import ImageRollout.Store.Writer

/-! Authoring plans. A draft is put in the name of the user and checked before a store gets it, so that
    no store holds a plan that breaks the rules. -/

namespace ImageRollout

/-- Puts every entry of a draft in the name of the user who makes the plan. -/
def PlanDraft.stampNew (d : PlanDraft) (user : Option String) : PlanDraft :=
  { d with
    createdBy := user
    modifiedBy := user
    entries := d.entries.map fun e => { e with createdBy := user, modifiedBy := user } }

/-- Puts the change that a draft makes in the name of the user. Who made the entries is left as the
    draft says. -/
def PlanDraft.stampChange (d : PlanDraft) (user : Option String) : PlanDraft :=
  { d with
    modifiedBy := user
    entries := d.entries.map fun e => { e with modifiedBy := user } }

/-- The name of the plan: that of the draft, or one made from the image type. -/
def PlanDraft.planName (d : PlanDraft) : String :=
  match d.name with
  | some name => if name.val.isEmpty then s!"{d.imageType.val} rampup" else name.val
  | none => s!"{d.imageType.val} rampup"

/-- The plan that a draft asks a store to keep. -/
def PlanDraft.toNewPlan (d : PlanDraft) : NewPlan where
  imageType := d.imageType.val
  name := d.planName
  entries := d.toEntries
  activate := d.activate
  description := d.description
  createdBy := d.createdBy

namespace Authoring

variable {σ : Type}

/-- Goes on if entries keep the rules. -/
def require (entries : List Entry) : Action σ Unit :=
  match checkPlan entries with
  | .ok () => pure ()
  | .error fault => Action.fail (.domain (.invalidPlan fault))

def create (writer : PlanWriter σ) (draft : PlanDraft) (user : Option String) : Action σ PlanId := do
  let plan := (draft.stampNew user).toNewPlan
  require plan.entries
  let id ← writer.create plan
  Action.report [.planCreated user id plan.imageType]
  pure id

/-- Gives the active plan of an image type the entries of a draft, whatever image type the draft names. -/
def update (writer : PlanWriter σ) (imageType : String) (draft : PlanDraft) (user : Option String) :
    Action σ PlanId := do
  let entries := (draft.stampChange user).toEntries
  require entries
  let id ← writer.update imageType entries user
  Action.report [.planUpdated user id imageType]
  pure id

end Authoring

end ImageRollout
