import ImageRollout.Json.Value
import ImageRollout.Number.Shortest
import ImageRollout.Text.Digits

/-! Writing JSON documents in ASCII, on one line or indented. -/

namespace ImageRollout.Json

open Text

def numberedEscape (unit : Nat) : List Char :=
  '\x5c' :: 'u' :: hexDigits 4 unit

/-- A character of a string. The characters outside ASCII are written by number, in two units where
    one does not hold them. -/
def writtenChar (c : Char) : List Char :=
  if c = '\x22' ∨ c = '\x5c' then ['\x5c', c]
  else if c = '\n' then ['\x5c', 'n']
  else if c = '\r' then ['\x5c', 'r']
  else if c = '\t' then ['\x5c', 't']
  else if c = '\x08' then ['\x5c', 'b']
  else if c = '\x0c' then ['\x5c', 'f']
  else if ' ' ≤ c ∧ c ≤ '~' then [c]
  else if c.toNat < 0x10000 then numberedEscape c.toNat
  else
    let n := c.toNat - 0x10000
    numberedEscape (0xD800 + n / 0x400) ++ numberedEscape (0xDC00 + n % 0x400)

def writtenString (s : String) : String :=
  String.ofList ('\x22' :: s.toList.flatMap writtenChar ++ ['\x22'])

/-- A floating-point number. The ones that are not finite are words. -/
def writtenReal : Binary64 → String
  | .nan => "NaN"
  | .infinite negative => if negative then "-Infinity" else "Infinity"
  | x => x.text

mutual

/-- A document on one line, with a blank after each comma and colon. -/
def line : Json → String
  | .null => "null"
  | .bool b => if b then "true" else "false"
  | .int n => ofInt n
  | .real x => writtenReal x
  | .str s => writtenString s
  | .arr items => "[" ++ ", ".intercalate (lineItems items) ++ "]"
  | .obj members => "\x7b" ++ ", ".intercalate (lineMembers members) ++ "\x7d"

def lineItems : List Json → List String
  | [] => []
  | item :: rest => line item :: lineItems rest

def lineMembers : List (String × Json) → List String
  | [] => []
  | (name, item) :: rest => (writtenString name ++ ": " ++ line item) :: lineMembers rest

end

/-- The start of a line that is indented by two blanks a level. -/
def indent (level : Nat) : String :=
  "\n" ++ String.ofList (List.replicate (2 * level) ' ')

/-- The elements of an array or object between its brackets, each on a line of its own. -/
def block (left right : String) (level : Nat) (parts : List String) : String :=
  if parts.isEmpty then left ++ right
  else left ++ indent (level + 1) ++ ("," ++ indent (level + 1)).intercalate parts ++ indent level ++ right

mutual

/-- A document with one element a line, from a level of indentation on. -/
def lines : Nat → Json → String
  | level, .arr items => block "[" "]" level (linesItems (level + 1) items)
  | level, .obj members => block "\x7b" "\x7d" level (linesMembers (level + 1) members)
  | _, .null => "null"
  | _, .bool b => if b then "true" else "false"
  | _, .int n => ofInt n
  | _, .real x => writtenReal x
  | _, .str s => writtenString s

def linesItems : Nat → List Json → List String
  | _, [] => []
  | level, item :: rest => lines level item :: linesItems level rest

def linesMembers : Nat → List (String × Json) → List String
  | _, [] => []
  | level, (name, item) :: rest => (writtenString name ++ ": " ++ lines level item) :: linesMembers level rest

end

end ImageRollout.Json
