import ImageRollout.Draw
import ImageRollout.Misuse
import ImageRollout.Plan.Coverage

/-! What a draw makes of the plan of one image type. -/

namespace ImageRollout

/-- What is wrong with a stored plan that a draw falls through. -/
inductive Violation where
  | uncovered (draw : Int)
  | noShare (version : String)
  | unstable (version : String)
  deriving DecidableEq, Repr

def Violation.text : Violation → String
  | .uncovered draw => s!"no rampup entry covers draw {Text.ofInt draw}"
  | .noShare version => s!"selected version {version} has zero rampup percentage"
  | .unstable version => s!"selected version {version} is marked UNSTABLE"

/-- What became of one image type. -/
inductive Outcome where
  /-- It has no active plan, and no draw was made. -/
  | noPlan
  /-- The draw fell to an entry that can be used. -/
  | selected (entry : Entry) (draw : Int)
  /-- The draw showed that the plan is corrupt. -/
  | violated (draw : Int) (violation : Violation)
  /-- The number drawn is no draw. -/
  | outOfRange (draw : Int)
  /-- There is a plan, and nothing to draw from it with. -/
  | undrawn
  deriving DecidableEq, Repr

/-- The entry that a number falls to, if it is a draw. -/
def select (entries : List Entry) (draw : Int) : Except Misuse (Option Entry) :=
  if Draw.isValid draw then .ok (covering? entries draw) else .error (.badDraw draw)

/-- What a number makes of the entries of a plan. -/
def judge (entries : List Entry) (draw : Int) : Outcome :=
  match select entries draw with
  | .error _ => .outOfRange draw
  | .ok none => .violated draw (.uncovered draw)
  | .ok (some e) =>
    if e.share.val = 0 then .violated draw (.noShare e.version.val)
    else if e.stability = .unstable then .violated draw (.unstable e.version.val)
    else .selected e draw

namespace Outcome

def version? : Outcome → Option String
  | .selected e _ => some e.version.val
  | _ => none

def violation? : Outcome → Option Violation
  | .violated _ v => some v
  | _ => none

def draw? : Outcome → Option Int
  | .noPlan | .undrawn => none
  | .selected _ d | .violated d _ | .outOfRange d => some d

end Outcome

/-- Resolves one image type from its plan: without a plan no draw is made, and no strategy needed. -/
def resolve (imageType : String) (plan : Option Plan) (strategy : Option Strategy) (g : Generator) :
    Outcome × Generator :=
  match plan, strategy with
  | none, _ => (.noPlan, g)
  | some _, none => (.undrawn, g)
  | some plan, some strategy =>
    let (draw, g) := strategy.draw imageType g
    (judge plan.entries draw, g)

end ImageRollout
