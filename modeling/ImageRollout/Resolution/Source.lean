import ImageRollout.Action

/-! What resolution draws on: stores that answer, refuse or stay silent, and a generator of draws. All
    that was asked of them is kept on record. -/

namespace ImageRollout

/-- A call to a store, with its image types in order. -/
inductive StoreCall where
  | activePlans (imageTypes : List String)
  | latestActive (imageTypes : List String)
  | typeNames
  deriving DecidableEq, Repr

namespace StoreCall

def name : StoreCall → String
  | activePlans _ => "fetch_rampup_plans"
  | latestActive _ => "fetch_latest_active_versions"
  | typeNames => "list_image_type_names"

def imageTypes? : StoreCall → Option (List String)
  | activePlans imageTypes | latestActive imageTypes => some imageTypes
  | typeNames => none

end StoreCall

/-- What comes back from a store that does not refuse. -/
inductive Reply (α : Type) where
  | answered (answer : α)
  /-- Nothing, for as long as the caller waits. -/
  | silent

/-- The plans that a store answers with, each under the image type it is for. A type may be there
    without a plan. -/
abbrev PlanAnswer := List (String × Option Plan)

/-- The stores that resolution reads. -/
structure Source (σ : Type) where
  activePlans : List String → Action σ (Reply PlanAnswer)
  latestActive : List String → Action σ (Reply (Option (List ActiveVersion)))
  /-- The names of all image types, where that can be asked. -/
  typeNames? : Option (Action σ (Reply (List String)))

/-- The state of resolution. -/
structure Backing (σ : Type) where
  store : σ
  generator : Generator
  /-- The store calls that began to run, in order. -/
  calls : List StoreCall := []
  /-- The draws that were asked for, in order. -/
  asks : List Ask := []
  /-- The store calls that were made, in order. One that there is no time for is made and never runs. -/
  made : List StoreCall := []

/-- How resolution deals with what it meets. -/
structure Rules where
  /-- Whether a corrupt plan ends it. -/
  strict : Bool
  /-- How long a store may take. -/
  timeout : Seconds
  deriving DecidableEq, Repr

namespace Backing

variable {σ α : Type}

/-- The state of resolution before anything was asked for. -/
def start (store : σ) (generator : Generator) : Backing σ where
  store := store
  generator := generator

def onStore (a : Action σ α) : Action (Backing σ) α :=
  a.onPart store fun s b => { b with store := s }

def recordMade (call : StoreCall) : Action (Backing σ) Unit :=
  Action.change fun b => { b with made := b.made ++ [call] }

def recordCall (call : StoreCall) : Action (Backing σ) Unit :=
  Action.change fun b => { b with calls := b.calls ++ [call] }

end Backing

open Backing in
/-- Calls a store. The call is made in any case; without time it is given up before it begins to run, and
    else when the store stays silent. -/
def callStore {σ α : Type} (timeout : Seconds) (call : StoreCall) (answer : Action σ (Reply α)) :
    Action (Backing σ) α :=
  let giveUp : Action (Backing σ) α := do
    Action.report [.storeTimedOut call.name timeout]
    Action.fail (.domain (.storeTimedOut call.name timeout))
  do
    recordMade call
    if timeout.isOver then giveUp
    else
      recordCall call
      match ← onStore answer with
      | .answered a => pure a
      | .silent => giveUp

end ImageRollout
