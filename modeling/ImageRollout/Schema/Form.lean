import ImageRollout.Number.Numeral
import ImageRollout.Plan.Entry
import ImageRollout.Draw
import ImageRollout.Schema.Checked
import ImageRollout.Text.LetterCase

/-! The checks of single values. Texts and words are never made from other values; numbers and truth
    values are also read from the texts, numbers and truth values that stand for them. -/

namespace ImageRollout.Form

open Checked

variable {α : Type}

def text : Json → Checked String
  | .str s => .accepted s
  | _ => refuse .notText

def shortText (j : Json) : Checked { s : String // s.length ≤ 255 } :=
  (text j).andThen fun s =>
    if h : s.length ≤ 255 then .accepted ⟨s, h⟩ else refuse (.tooLong 255)

def label (j : Json) : Checked Label :=
  (text j).andThen fun s =>
    if h₁ : 1 ≤ s.length then
      if h₂ : s.length ≤ 255 then .accepted ⟨s, h₁, h₂⟩ else refuse (.tooLong 255)
    else refuse .tooShort

/-- The least number that is too large for an integer of 64 bits. -/
def bound : Int := 0x8000000000000000

/-- A floating-point number as an integer: it has no fraction, and lies strictly between the ends of
    the range of 64 bits. -/
def integerOf (x : Binary64) : Checked Int :=
  if x.isFinite then
    match x.toInt? with
    | none => refuse .fractional
    | some n => if -bound < n ∧ n < bound then .accepted n else refuse .oversized
  else refuse .infinite

def integer : Json → Checked Int
  | .bool b => .accepted (if b then 1 else 0)
  | .int n => .accepted n
  | .real x => integerOf x
  | .str s =>
    if Numeral.isOversized s.toList then refuse .oversized
    else
      match Numeral.integer? s.toList with
      | some n => .accepted n
      | none => refuse .notNumeral
  | .null | .arr _ | .obj _ => refuse .notInteger

def percentage (j : Json) : Checked Percentage :=
  (integer j).andThen fun n =>
    if n < 0 then refuse (.below 0)
    else if h : n.toNat ≤ 100 then .accepted ⟨n.toNat, h⟩ else refuse (.above 100)

/-- The words for a truth value, in any case of their ASCII letters. -/
def truthOfWord? (s : String) : Option Bool :=
  let word := String.ofList (s.toList.map Char.toLower)
  if ["0", "off", "f", "false", "n", "no"].contains word then some false
  else if ["1", "on", "t", "true", "y", "yes"].contains word then some true
  else none

/-- The truth value of a number: zero and one have one. -/
def truthOfInt (n : Int) : Checked Bool :=
  if n = 0 then .accepted false
  else if n = 1 then .accepted true
  else refuse .unclearBoolean

/-- A truth value. A number stands for one only if it is an integer of 64 bits. -/
def boolean : Json → Checked Bool
  | .bool b => .accepted b
  | .int n => if -bound ≤ n ∧ n < bound then truthOfInt n else refuse .notBoolean
  | .real x =>
    match integerOf x with
    | .accepted n => truthOfInt n
    | .refused _ => refuse .notBoolean
  | .str s =>
    match truthOfWord? s with
    | some b => .accepted b
    | none => refuse .unclearBoolean
  | .null | .arr _ | .obj _ => refuse .notBoolean

/-- A real number. An integer beyond the range of floating-point numbers is none. -/
def real : Json → Checked Binary64
  | .bool b => .accepted (.ofInt (if b then 1 else 0))
  | .int n =>
    let x := Binary64.ofInt n
    if x.isFinite then .accepted x else refuse .notNumber
  | .real x => .accepted x
  | .str s =>
    match Numeral.real? s.toList with
    | some x => .accepted x
    | none => refuse .notRealNumeral
  | .null | .arr _ | .obj _ => refuse .notNumber

/-- A word that stands for a value. -/
def word (words : List String) (ofName? : String → Option α) : Json → Checked α
  | .str s =>
    match ofName? s with
    | some a => .accepted a
    | none => refuse (.notOneOf words)
  | _ => refuse (.notOneOf words)

/-- The stability of a version, whose word may be in any case and have blanks around it. -/
def stability : Json → Checked Stability :=
  word ([Stability.experimental, .stable, .unstable].map Stability.name)
    fun s => Stability.ofName? (Text.toSmall (Text.strip s))

/-- A kind of selection, whose word is exact. -/
def selection : Json → Checked Selection :=
  word ([Selection.random, .deterministic].map Selection.name) Selection.ofName?

/-- The identity of a plan. -/
def planId : Json → Checked PlanId
  | .str s =>
    match Uuid.ofText? s with
    | some id => .accepted (.given id)
    | none => refuse .badIdentifier
  | _ => refuse .notIdentifier

def list (check : Json → Checked α) : Json → Checked (List α)
  | .arr items => Checked.items check 0 items
  | _ => refuse .notList

def someList (check : Json → Checked α) (j : Json) : Checked (List α) :=
  (list check j).andThen fun as => if as.isEmpty then refuse .noItems else .accepted as

def optional (check : Json → Checked α) : Json → Checked (Option α)
  | .null => .accepted none
  | j => (check j).map some

/-- A member that has to be there. -/
def required (members : List (String × Json)) (name : String) (check : Json → Checked α) : Checked α :=
  under (.field name) <|
    match Json.member? name members with
    | some j => check j
    | none => refuse .missing

/-- A member that has a value when it is left out. -/
def defaulted (members : List (String × Json)) (name : String) (default : α) (check : Json → Checked α) :
    Checked α :=
  under (.field name) <|
    match Json.member? name members with
    | some j => check j
    | none => .accepted default

/-- A document with members. -/
def object (form : String) (check : List (String × Json) → Checked α) : Json → Checked α
  | .obj members => check members
  | _ => refuse (.notObject form)

end ImageRollout.Form
