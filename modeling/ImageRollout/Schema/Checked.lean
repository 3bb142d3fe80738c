import ImageRollout.Json.Value

/-! Checking documents against a form. All that is wrong with a document is reported, in the order of
    the fields of the form, each issue with the path that leads to it. -/

namespace ImageRollout

/-- A step into a document: to a member of an object or to an item of an array. -/
inductive Step where
  | field (name : String)
  | item (index : Nat)
  deriving DecidableEq, Repr

/-- What is wrong with a value. -/
inductive Cause where
  | notObject (form : String)
  | missing
  | notText
  | tooShort
  | tooLong (limit : Nat)
  | notList
  | noItems
  | notInteger
  | notNumeral
  | fractional
  | infinite
  | oversized
  | below (limit : Int)
  | above (limit : Int)
  | notOneOf (words : List String)
  | notBoolean
  | unclearBoolean
  | notNumber
  | notRealNumeral
  | notIdentifier
  | badIdentifier
  | unfit (reason : String)
  deriving DecidableEq, Repr

/-- An issue and where it is. -/
structure Issue where
  cause : Cause
  path : List Step
  deriving DecidableEq, Repr

namespace Cause

def kind : Cause → String
  | .notObject _ => "model_type"
  | .missing => "missing"
  | .notText => "string_type"
  | .tooShort => "string_too_short"
  | .tooLong _ => "string_too_long"
  | .notList => "list_type"
  | .noItems => "too_short"
  | .notInteger => "int_type"
  | .notNumeral => "int_parsing"
  | .fractional => "int_from_float"
  | .infinite => "finite_number"
  | .oversized => "int_parsing_size"
  | .below _ => "greater_than_equal"
  | .above _ => "less_than_equal"
  | .notOneOf _ => "enum"
  | .notBoolean => "bool_type"
  | .unclearBoolean => "bool_parsing"
  | .notNumber => "float_type"
  | .notRealNumeral => "float_parsing"
  | .notIdentifier => "uuid_type"
  | .badIdentifier => "uuid_parsing"
  | .unfit _ => "value_error"

/-- Words in single quotes, with commas between them and "or" before the last. -/
def choice : List String → String
  | [] => ""
  | [word] => s!"'{word}'"
  | [word, last] => s!"'{word}' or '{last}'"
  | word :: rest => s!"'{word}', " ++ choice rest

def message : Cause → String
  | .notObject form => s!"Input should be a valid dictionary or instance of {form}"
  | .missing => "Field required"
  | .notText => "Input should be a valid string"
  | .tooShort => "String should have at least 1 character"
  | .tooLong limit => s!"String should have at most {limit} characters"
  | .notList => "Input should be a valid list"
  | .noItems => "List should have at least 1 item after validation, not 0"
  | .notInteger => "Input should be a valid integer"
  | .notNumeral => "Input should be a valid integer, unable to parse string as an integer"
  | .fractional => "Input should be a valid integer, got a number with a fractional part"
  | .infinite => "Input should be a finite number"
  | .oversized => "Unable to parse input string as an integer, exceeded maximum size"
  | .below limit => s!"Input should be greater than or equal to {limit}"
  | .above limit => s!"Input should be less than or equal to {limit}"
  | .notOneOf words => "Input should be " ++ choice words
  | .notBoolean => "Input should be a valid boolean"
  | .unclearBoolean => "Input should be a valid boolean, unable to interpret input"
  | .notNumber => "Input should be a valid number"
  | .notRealNumeral => "Input should be a valid number, unable to parse string as a number"
  | .notIdentifier => "UUID input should be a string, bytes or UUID object"
  | .badIdentifier => "Input should be a valid UUID"
  | .unfit reason => s!"Value error, {reason}"

end Cause

/-- The outcome of a check: a value, or every issue that was found. -/
inductive Checked (α : Type) where
  | accepted (value : α)
  | refused (issues : List Issue)
  deriving Repr

namespace Checked

variable {α β : Type}

/-- A refusal for one cause, at the value itself. -/
def refuse (cause : Cause) : Checked α :=
  .refused [⟨cause, []⟩]

def map (f : α → β) : Checked α → Checked β
  | .accepted a => .accepted (f a)
  | .refused issues => .refused issues

/-- Two checks side by side: the issues of both count. -/
def both (f : Checked (α → β)) (a : Checked α) : Checked β :=
  match f, a with
  | .accepted f, .accepted a => .accepted (f a)
  | .accepted _, .refused issues => .refused issues
  | .refused issues, .accepted _ => .refused issues
  | .refused first, .refused second => .refused (first ++ second)

/-- A check of what another one accepted. -/
def andThen (a : Checked α) (f : α → Checked β) : Checked β :=
  match a with
  | .accepted a => f a
  | .refused issues => .refused issues

/-- A check of a part: its issues lie one step further down. -/
def under (step : Step) : Checked α → Checked α
  | .accepted a => .accepted a
  | .refused issues => .refused (issues.map fun issue => { issue with path := step :: issue.path })

/-- Checks of all items in their order, where the first has the given index. -/
def items (check : Json → Checked α) : Nat → List Json → Checked (List α)
  | _, [] => .accepted []
  | index, item :: rest =>
    both (map List.cons (under (.item index) (check item))) (items check (index + 1) rest)

instance : Functor Checked where
  map := map

instance : Seq Checked where
  seq f a := both f (a ())

end Checked

end ImageRollout
