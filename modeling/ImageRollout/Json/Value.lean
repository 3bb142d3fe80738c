import ImageRollout.Number.Binary64

/-! JSON documents. A number keeps the form it was written in: an integer of any size, or a
    floating-point number where the numeral has a point or an exponent. -/

namespace ImageRollout

/-- A JSON document. An object keeps the order of its members. -/
inductive Json where
  | null
  | bool (value : Bool)
  | int (value : Int)
  | real (value : Binary64)
  | str (value : String)
  | arr (items : List Json)
  | obj (members : List (String × Json))
  deriving Repr, Inhabited

namespace Json

/-- The value of a member. Where a name is repeated the last member counts. -/
def member? (name : String) (members : List (String × Json)) : Option Json :=
  members.reverse.lookup name

def ofText? : Option String → Json
  | none => .null
  | some s => .str s

def ofTexts (texts : List String) : Json :=
  .arr (texts.map .str)

/-- Whether a document says nothing: it is null, false, zero or empty. -/
def isVacant : Json → Bool
  | .null => true
  | .bool b => !b
  | .int n => n == 0
  | .real x => x.isZero
  | .str s => s.isEmpty
  | .arr items => items.isEmpty
  | .obj members => members.isEmpty

end Json

end ImageRollout
