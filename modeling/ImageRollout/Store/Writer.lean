import ImageRollout.Action

/-! Stores that keep plans, and what they are asked to keep. -/

namespace ImageRollout

/-- A plan to be stored. -/
structure NewPlan where
  imageType : String
  name : String
  entries : List Entry
  /-- Whether it takes the place of the active plan. -/
  activate : Bool := true
  description : Option String := none
  createdBy : Option String := none
  deriving DecidableEq, Repr

/-- A store that keeps plans. -/
structure PlanWriter (σ : Type) where
  create : NewPlan → Action σ PlanId
  /-- Gives the active plan of an image type new entries, in the name of a user. -/
  update : String → List Entry → Option String → Action σ PlanId
  activePlan? : String → Action σ (Option Plan)

end ImageRollout
