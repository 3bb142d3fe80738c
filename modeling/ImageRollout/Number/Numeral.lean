import ImageRollout.Number.Binary64
import ImageRollout.Text.Blank
import ImageRollout.Text.Digits

/-! Numerals as people type them: integers and real numbers, with white space around them, a sign,
    and single underscores between digits. An integer may have zeros before it and a zero part after
    it; its numeral must not be too long. -/

namespace ImageRollout.Numeral

open Text

/-! ### Integers -/

def isLeading (c : Char) : Bool :=
  c.isDigit && c != '0'

/-- A plain numeral without sign: digits, of which the first is zero only if it stands alone. -/
def natural? : List Char → Option Nat
  | ['0'] => some 0
  | [] => none
  | c :: cs =>
    if isLeading c && cs.all Char.isDigit then some (ofDigits 10 ((c :: cs).filterMap decimalDigit?)) else none

/-- A plain numeral: perhaps with a hyphen before it. -/
def plain? : List Char → Option Int
  | '-' :: cs => (natural? cs).map fun n => -(n : Int)
  | cs => (natural? cs).map Int.ofNat

/-- The most digits that a plain numeral may have. -/
def longest : Nat := 4300

/-- Whether a text starts with a plain numeral that has too many digits. -/
def isOversized (cs : List Char) : Bool :=
  let digits :=
    match cs with
    | '-' :: digits => digits
    | digits => digits
  digits.head?.any isLeading && decide (longest < (digits.takeWhile Char.isDigit).length)

/-- What follows a run of zeros and underscores whose last character is given. A point keeps that
    character before it, and so does the end. -/
def afterZeros? (last : Char) : List Char → Option (List Char)
  | [] => some [last]
  | c :: cs =>
    if c = '0' ∨ c = '_' then afterZeros? c cs
    else if c = '.' then some (last :: c :: cs)
    else if c = '-' || isLeading c then some (c :: cs)
    else none

/-- A text without the zeros before its number. A hyphen may follow them. -/
def significant? : List Char → Option (List Char)
  | [] => none
  | c :: cs =>
    if c = '0' then afterZeros? c cs
    else if isLeading c then some (c :: cs)
    else none

/-- A text without its first point if only zeros follow it, and at least one. -/
def withoutZeroPart (cs : List Char) : List Char :=
  match cs.dropWhile (· != '.') with
  | _ :: zero :: zeros => if (zero :: zeros).all (· == '0') then cs.takeWhile (· != '.') else cs
  | _ => cs

/-- Whether underscores stand only inside a text, and never two together. -/
def isGrouped (cs : List Char) : Bool :=
  cs.head? != some '_' && cs.getLast? != some '_' &&
    !(cs.zip (cs.drop 1)).any fun (a, b) => a == '_' && b == '_'

def ungrouped (cs : List Char) : List Char :=
  if isGrouped cs then cs.filter (· != '_') else cs

/-- The plain form of an integer numeral without sign: without zeros before it, without a zero part
    after it, and without grouping. -/
def plainForm? (cs : List Char) : Option (List Char) :=
  (significant? cs).map fun cs => ungrouped (withoutZeroPart cs)

/-- A plain numeral that is not too long. -/
def fitting? (cs : List Char) : Option Int :=
  if isOversized cs then none else plain? cs

/-- An integer numeral: a plain one, or white space around a text with a plain form and perhaps a sign
    before it. -/
def integer? (cs : List Char) : Option Int :=
  match fitting? cs with
  | some n => some n
  | none =>
    match trimChars isSpace cs with
    | '+' :: cs => (plainForm? cs).bind fitting?
    | '-' :: cs => (plainForm? cs).bind fun cs => fitting? ('-' :: cs)
    | cs => (plainForm? cs).bind fitting?

/-! ### Real numbers -/

/-- The digits at the front of a text, and the rest. -/
def digitsThen (cs : List Char) : List Nat × List Char :=
  (cs.takeWhile Char.isDigit |>.filterMap decimalDigit?, cs.dropWhile Char.isDigit)

/-- An exponent: nothing, or the letter e, perhaps a sign, and digits. -/
def exponent? : List Char → Option Int
  | [] => some 0
  | e :: cs =>
    if e = 'e' ∨ e = 'E' then
      let (sign, cs) : Int × List Char :=
        match cs with
        | '-' :: cs => (-1, cs)
        | '+' :: cs => (1, cs)
        | cs => (1, cs)
      match digitsThen cs with
      | ([], _) => none
      | (ds, []) => some (sign * ofDigits 10 ds)
      | (_, _ :: _) => none
    else none

/-- A decimal numeral without sign: digits with perhaps a point before, among or after them, and
    perhaps an exponent. -/
def decimal? (negative : Bool) (cs : List Char) : Option Binary64 :=
  let (whole, cs) := digitsThen cs
  let (part, cs) : List Nat × List Char :=
    match cs with
    | '.' :: cs => digitsThen cs
    | cs => ([], cs)
  if whole.isEmpty && part.isEmpty then none
  else (exponent? cs).map fun e =>
    Binary64.ofDecimal negative (ofDigits 10 (whole ++ part)) (e - part.length)

/-- A real number without sign: a decimal numeral, or the word for infinity or for no number. -/
def unsigned? (negative : Bool) (cs : List Char) : Option Binary64 :=
  let word := String.ofList (cs.map Char.toLower)
  if word = "inf" ∨ word = "infinity" then some (.infinite negative)
  else if word = "nan" then some .nan
  else decimal? negative cs

def signed? : List Char → Option Binary64
  | '-' :: cs => unsigned? true cs
  | '+' :: cs => unsigned? false cs
  | cs => unsigned? false cs

/-- A real numeral: with white space around it, or else without its underscores. -/
def real? (cs : List Char) : Option Binary64 :=
  match signed? (trimChars isSpace cs) with
  | some x => some x
  | none => signed? (ungrouped cs)

end ImageRollout.Numeral
