import ImageRollout.Uuid

/-! Rollout plans: versions of one image type, each with its share of the workloads in percent. -/

namespace ImageRollout

/-- How far a version is trusted. -/
inductive Stability where
  | experimental
  | stable
  | unstable
  deriving DecidableEq, Repr

def Stability.name : Stability → String
  | .experimental => "experimental"
  | .stable => "stable"
  | .unstable => "unstable"

def Stability.ofName? (s : String) : Option Stability :=
  [experimental, stable, unstable].find? fun stability => stability.name = s

/-- A text of 1 to 255 characters. -/
abbrev Label := { s : String // 1 ≤ s.length ∧ s.length ≤ 255 }

abbrev Percentage := { n : Nat // n ≤ 100 }

/-- One version of a plan. -/
structure Entry where
  version : Label
  share : Percentage
  stability : Stability := .experimental
  createdBy : Option String := none
  modifiedBy : Option String := none
  deriving DecidableEq, Repr

/-- The identity of a plan: one that was given to it, or the number of one that a store made. -/
inductive PlanId where
  | given (id : Uuid)
  | made (number : Nat)
  deriving DecidableEq, Repr

/-- The text of an identity, where `fresh` gives the ones that a store makes. -/
def PlanId.text (fresh : Nat → String) : PlanId → String
  | .given id => id.text
  | .made number => fresh number

/-- A plan as resolution reads it. -/
structure Plan where
  imageType : String
  active : Bool := true
  entries : List Entry := []
  id : Option PlanId := none
  name : Option String := none
  deriving DecidableEq, Repr

def total : List Entry → Nat
  | [] => 0
  | e :: rest => e.share.val + total rest

/-- A version that an image type falls back to. -/
structure ActiveVersion where
  imageType : String
  version : String
  deriving DecidableEq, Repr

end ImageRollout
