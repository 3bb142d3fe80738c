import ImageRollout.Json.Value
import ImageRollout.Number.Numeral
import ImageRollout.Text.Digits

/-! Reading JSON documents. Every reader takes the characters that are left and gives a value with
    the characters after it. The depth bounds the recursion; a document is never deeper than it is
    long. -/

namespace ImageRollout.Json

open Text

/-- A reader of one kind of value. -/
abbrev Reader (α : Type) := List Char → Option (α × List Char)

def quote : Char := '\x22'

/-- The characters that may stand between tokens. -/
def isGap (c : Char) : Bool :=
  c == ' ' || c == '\t' || c == '\n' || c == '\r'

def skipGap (cs : List Char) : List Char :=
  cs.dropWhile isGap

/-- Four hexadecimal digits. -/
def unit? : Reader Nat
  | a :: b :: c :: d :: rest => do
    let digits ← [a, b, c, d].mapM hexDigit?
    some (ofDigits 16 digits, rest)
  | _ => none

/-- The character of an escape that is one letter. -/
def escaped? : Char → Option Char
  | 'b' => some '\x08'
  | 'f' => some '\x0c'
  | 'n' => some '\n'
  | 'r' => some '\r'
  | 't' => some '\t'
  | '/' => some '/'
  | '\x5c' => some '\x5c'
  | '\x22' => some '\x22'
  | _ => none

/-- The character of a numbered escape. Two units of a surrogate pair are one character. -/
def numbered? : Reader Char := fun cs => do
  let (high, rest) ← unit? cs
  if 0xD800 ≤ high ∧ high < 0xDC00 then
    match rest with
    | '\x5c' :: 'u' :: more => do
      let (low, rest) ← unit? more
      if 0xDC00 ≤ low ∧ low < 0xE000 then
        some (Char.ofNat (0x10000 + (high - 0xD800) * 0x400 + (low - 0xDC00)), rest)
      else none
    | _ => none
  else some (Char.ofNat high, rest)

/-- The characters of a string as they are written, up to its closing quote. -/
def written? (done : List Char) : Reader (List Char)
  | [] => none
  | '\x5c' :: c :: rest => written? (c :: '\x5c' :: done) rest
  | c :: rest => if c = quote then some (done.reverse, rest) else written? (c :: done) rest

/-- The characters that written ones stand for. The length bounds the recursion. -/
def meant? : Nat → List Char → List Char → Option String
  | _, done, [] => some (String.ofList done.reverse)
  | 0, _, _ => none
  | length + 1, done, '\x5c' :: 'u' :: cs => do
    let (d, rest) ← numbered? cs
    meant? length (d :: done) rest
  | length + 1, done, '\x5c' :: e :: rest => do
    let d ← escaped? e
    meant? length (d :: done) rest
  | length + 1, done, c :: rest => meant? length (c :: done) rest

def string? : Reader String
  | c :: rest =>
    if c = quote then do
      let (cs, rest) ← written? [] rest
      let s ← meant? cs.length [] cs
      some (s, rest)
    else none
  | [] => none

def isNumeric (c : Char) : Bool :=
  c.isDigit || c == '-' || c == '+' || c == '.' || c == 'e' || c == 'E'

/-- A number: an integer where digits alone follow the sign. -/
def number? : Reader Json := fun cs =>
  let numeral := cs.takeWhile isNumeric
  let rest := cs.dropWhile isNumeric
  let (negative, digits) : Bool × List Char :=
    match numeral with
    | '-' :: digits => (true, digits)
    | digits => (false, digits)
  if digits.isEmpty then none
  else if digits.all Char.isDigit then
    let n : Int := ofDigits 10 (digits.filterMap decimalDigit?)
    some (.int (if negative then -n else n), rest)
  else (Numeral.decimal? negative digits).map fun x => (.real x, rest)

def word? (word : String) (value : Json) : Reader Json := fun cs =>
  if word.toList.isPrefixOf cs then some (value, cs.drop word.length) else none

mutual

/-- A value, with gaps before it. -/
def value? : Nat → Reader Json
  | 0, _ => none
  | depth + 1, cs =>
    match skipGap cs with
    | [] => none
    | c :: rest =>
      if c = quote then (string? (c :: rest)).map fun (s, rest) => (.str s, rest)
      else if c = '[' then
        match skipGap rest with
        | ']' :: rest => some (.arr [], rest)
        | rest => items? depth [] rest
      else if c = '\x7b' then
        match skipGap rest with
        | '\x7d' :: rest => some (.obj [], rest)
        | rest => members? depth [] rest
      else if c = 'n' then word? "null" .null (c :: rest)
      else if c = 't' then word? "true" (.bool true) (c :: rest)
      else if c = 'f' then word? "false" (.bool false) (c :: rest)
      else if c = 'N' then word? "NaN" (.real .nan) (c :: rest)
      else if c = 'I' then word? "Infinity" (.real (.infinite false)) (c :: rest)
      else if c = '-' && rest.head? = some 'I' then word? "-Infinity" (.real (.infinite true)) (c :: rest)
      else number? (c :: rest)

/-- The items of an array up to its end. -/
def items? : Nat → List Json → Reader Json
  | 0, _, _ => none
  | depth + 1, done, cs =>
    match value? depth cs with
    | none => none
    | some (item, rest) =>
      match skipGap rest with
      | ',' :: rest => items? depth (item :: done) rest
      | ']' :: rest => some (.arr (item :: done).reverse, rest)
      | _ => none

/-- The members of an object up to its end. -/
def members? : Nat → List (String × Json) → Reader Json
  | 0, _, _ => none
  | depth + 1, done, cs =>
    match string? (skipGap cs) with
    | none => none
    | some (name, rest) =>
      match skipGap rest with
      | ':' :: rest =>
        match value? depth rest with
        | none => none
        | some (item, rest) =>
          match skipGap rest with
          | ',' :: rest => members? depth ((name, item) :: done) rest
          | '\x7d' :: rest => some (.obj ((name, item) :: done).reverse, rest)
          | _ => none
      | _ => none

end

def read? (s : String) : Option Json :=
  match value? (s.length + 1) s.toList with
  | some (value, rest) => if (skipGap rest).isEmpty then some value else none
  | none => none

end ImageRollout.Json
