/-! Binary floating-point numbers of sixty-four bits, as exact values: a sign, a significand below
    2 ^ 53 and an exponent of two, or an infinity, or not a number. -/

namespace ImageRollout

/-- A binary floating-point number. The finite ones are plus or minus significand times two to the
    exponent; the significand is at least 2 ^ 52 unless the exponent is the least one, -1074. -/
inductive Binary64 where
  | finite (negative : Bool) (significand : Nat) (exponent : Int)
  | infinite (negative : Bool)
  | nan
  deriving DecidableEq, Repr

namespace Binary64

def leastExponent : Int := -1074

def greatestExponent : Int := 971

/-- The fraction `num / den` divided by two to the power `q`. -/
def scaled (num den : Nat) (q : Int) : Nat × Nat :=
  if 0 ≤ q then (num, den * Nat.pow 2 q.toNat) else (num * Nat.pow 2 (-q).toNat, den)

/-- The integer nearest to `num / den`, the even one of two. -/
def roundHalfEven (num den : Nat) : Nat :=
  let below := num / den
  let rest := num % den
  if 2 * rest < den then below
  else if den < 2 * rest then below + 1
  else if below % 2 = 0 then below else below + 1

/-- The exponent that brings `num / den` between 2 ^ 52 and 2 ^ 53, or the least one. -/
def exponentFor (num den : Nat) : Int :=
  let guess : Int := (Nat.log2 num : Int) - (Nat.log2 den : Int) - 52
  let (n, d) := scaled num den guess
  max (if n / d < Nat.pow 2 52 then guess - 1 else guess) leastExponent

/-- The number nearest to plus or minus `num / den`, the one with an even significand of two. -/
def ofRatio (negative : Bool) (num den : Nat) : Binary64 :=
  if num = 0 then .finite negative 0 leastExponent
  else
    let q := exponentFor num den
    let (n, d) := scaled num den q
    let m := roundHalfEven n d
    let (m, q) := if m = Nat.pow 2 53 then (Nat.pow 2 52, q + 1) else (m, q)
    if greatestExponent < q then .infinite negative else .finite negative m q

/-- The number nearest to plus or minus `digits` times ten to the exponent. Beyond ten to the power
    310 every numeral is infinite and below ten to the power -330 every one is zero. -/
def ofDecimal (negative : Bool) (digits : Nat) (exponent : Int) : Binary64 :=
  let size : Int := (Nat.toDigits 10 digits).length + exponent
  if digits = 0 ∨ size < -330 then .finite negative 0 leastExponent
  else if 310 < size then .infinite negative
  else if 0 ≤ exponent then ofRatio negative (digits * Nat.pow 10 exponent.toNat) 1
  else ofRatio negative digits (Nat.pow 10 (-exponent).toNat)

def ofInt (n : Int) : Binary64 :=
  ofDecimal (decide (n < 0)) n.natAbs 0

def toInt? : Binary64 → Option Int
  | .finite negative m q =>
    let magnitude? : Option Nat :=
      if 0 ≤ q then some (m * Nat.pow 2 q.toNat)
      else if m % Nat.pow 2 (-q).toNat = 0 then some (m / Nat.pow 2 (-q).toNat)
      else none
    magnitude?.map fun n => if negative then -(n : Int) else n
  | .infinite _ | .nan => none

/-- The sign of a finite number, and its magnitude as a fraction. -/
def ratio? : Binary64 → Option (Bool × Nat × Nat)
  | .finite negative m q => some (negative, scaled m 1 (-q))
  | .infinite _ | .nan => none

def isFinite : Binary64 → Bool
  | .finite .. => true
  | .infinite _ | .nan => false

def isZero : Binary64 → Bool
  | .finite _ m _ => m == 0
  | .infinite _ | .nan => false

/-- Whether a number compares as at most zero; nothing that is not a number does. -/
def atMostZero : Binary64 → Bool
  | .finite negative m _ => negative || m == 0
  | .infinite negative => negative
  | .nan => false

/-- Whether a number compares as greater than zero; nothing that is not a number does. -/
def isPositive : Binary64 → Bool
  | .finite negative m _ => !negative && m != 0
  | .infinite negative => !negative
  | .nan => false

end Binary64

end ImageRollout
