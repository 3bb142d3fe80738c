import ImageRollout.Resolution.Source

/-! The survey of a batch: the image types are resolved from their plans, one after the other, in code
    point order. It ends early at a number that is no draw, at a plan that there is no strategy for
    and, where the rules are strict, at a corrupt plan. -/

namespace ImageRollout

def PlanAnswer.plan? (answer : PlanAnswer) (imageType : String) : Option Plan :=
  (answer.lookup imageType).join

/-- The failure that an outcome ends the survey with. -/
def Outcome.failure? (strict : Bool) (imageType : String) : Outcome → Option Failure
  | noPlan | selected _ _ => none
  | violated _ violation => if strict then some (.domain (.corruptPlan imageType violation.text)) else none
  | outOfRange draw => some (.misuse (.badDraw draw))
  | undrawn => some (.misuse .noStrategy)

/-- The event that an outcome is reported by. -/
def Outcome.event? (imageType : String) : Outcome → Option Event
  | noPlan | outOfRange _ | undrawn => none
  | selected entry draw => some (.selected imageType entry draw)
  | violated _ violation => some (.violated imageType violation)

/-- The outcomes of image types, each with its type. -/
abbrev Findings := List (String × Outcome)

/-- The findings on image types, and the generator after them. -/
def survey (strict : Bool) (strategy : Option Strategy) (answer : PlanAnswer) :
    List String → Generator → Findings × Generator
  | [], g => ([], g)
  | imageType :: rest, g =>
    let (outcome, g) := resolve imageType (answer.plan? imageType) strategy g
    if (outcome.failure? strict imageType).isSome then ([(imageType, outcome)], g)
    else
      let (findings, g) := survey strict strategy answer rest g
      ((imageType, outcome) :: findings, g)

namespace Findings

def events (findings : Findings) : List Event :=
  findings.filterMap fun (imageType, outcome) => outcome.event? imageType

def asks (findings : Findings) : List Ask :=
  (findings.filter fun (_, outcome) => outcome.draw?.isSome).map fun (imageType, _) => { imageType }

/-- The failure that ended the survey. -/
def failure? (strict : Bool) (findings : Findings) : Option Failure :=
  findings.findSome? fun (imageType, outcome) => outcome.failure? strict imageType

/-- The versions that plans gave. -/
def planned (findings : Findings) : List (String × String) :=
  findings.filterMap fun (imageType, outcome) => outcome.version?.map fun version => (imageType, version)

/-- The image types whose plan is corrupt. -/
def corrupt (findings : Findings) : List String :=
  (findings.filter fun (_, outcome) => outcome.violation?.isSome).map Prod.fst

end Findings

/-- Makes the survey, with its events, its draws and its failure. -/
def surveyed {σ : Type} (strict : Bool) (strategy : Option Strategy) (answer : PlanAnswer)
    (imageTypes : List String) : Action (Backing σ) Findings := do
  let (findings, g) ← Action.read fun b => survey strict strategy answer imageTypes b.generator
  Action.change fun b => { b with generator := g, asks := b.asks ++ findings.asks }
  Action.report findings.events
  match findings.failure? strict with
  | some failure => Action.fail failure
  | none => pure findings

end ImageRollout
