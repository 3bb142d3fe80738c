import ImageRollout.Number.Binary64
import ImageRollout.Text.Digits

/-! The text of a floating-point number: the decimal numeral with the fewest digits that reads back
    as the number, and of those the nearest to it. -/

namespace ImageRollout

/-- A decimal numeral: an integer times a power of ten. -/
structure Decimal where
  digits : Nat
  exponent : Int
  deriving DecidableEq, Repr

namespace Binary64

/-- The exact numbers that round to one finite number, in quarters of its unit: it lies at four
    times its significand, and the ends belong to it when the significand is even. -/
structure Basin where
  low : Nat
  centre : Nat
  high : Nat
  closed : Bool
  exponent : Int
  deriving DecidableEq, Repr

/-- The numbers below a power of two are twice as close. -/
def basin (m : Nat) (q : Int) : Basin where
  low := if m = Nat.pow 2 52 ∧ leastExponent < q then 4 * m - 1 else 4 * m - 2
  centre := 4 * m
  high := 4 * m + 2
  closed := m % 2 == 0
  exponent := q - 2

namespace Basin

/-- A point of the grid of ten to the power `k` and a bound of the basin, as integers in one unit:
    the first factor is for the multiples of the grid, the second for the quarters. -/
def factors (b : Basin) (k : Int) : Nat × Nat :=
  (Nat.pow 10 k.toNat * Nat.pow 2 (-b.exponent).toNat, Nat.pow 2 b.exponent.toNat * Nat.pow 10 (-k).toNat)

/-- Whether the multiple `c` of ten to the power `k` rounds to the number. -/
def holds (b : Basin) (k : Int) (c : Nat) : Bool :=
  let (grid, quarter) := b.factors k
  if b.closed then b.low * quarter ≤ c * grid && c * grid ≤ b.high * quarter
  else b.low * quarter < c * grid && c * grid < b.high * quarter

/-- The multiple of ten to the power `k` nearest to the number among its two neighbours that round
    to it, the even one of two equally near. -/
def nearest? (b : Basin) (k : Int) : Option Nat :=
  let (grid, quarter) := b.factors k
  let c := b.centre * quarter / grid
  match b.holds k c, b.holds k (c + 1) with
  | false, false => none
  | true, false => some c
  | false, true => some (c + 1)
  | true, true =>
    let below := b.centre * quarter - c * grid
    let above := (c + 1) * grid - b.centre * quarter
    if below < above then some c
    else if above < below then some (c + 1)
    else if c % 2 = 0 then some c else some (c + 1)

/-- The numeral on the coarsest grid that has one, from ten to the power `k` downwards. -/
def coarsest (b : Basin) : Nat → Int → Decimal
  | 0, _ => ⟨0, 0⟩
  | grids + 1, k =>
    match b.nearest? k with
    | some c => ⟨c, k⟩
    | none => b.coarsest grids (k - 1)

end Basin

/-- The shortest numeral of a finite positive number. No number is as great as ten to the power 309,
    and the grid of ten to the power -342 is finer than the least basin. -/
def shortest (m : Nat) (q : Int) : Decimal :=
  (basin m q).coarsest 652 309

/-- Where the positional form ends and how an exponent is written. -/
structure Layout where
  /-- The first digit stands at most this many places before the point. -/
  placesBefore : Int
  /-- At most this many zeros stand between the point and the first digit. -/
  zerosAfter : Int
  /-- An exponent has at least this many digits. -/
  exponentDigits : Nat

/-- Sixteen places, three zeros, exponents of two digits. -/
def layout : Layout := ⟨16, 3, 2⟩

/-- A decimal numeral in positional form with at least one digit after the point, or with an
    exponent. -/
def Layout.write (l : Layout) (d : Decimal) : String :=
  let digits := Nat.toDigits 10 d.digits
  let point : Int := digits.length + d.exponent
  if point ≤ l.placesBefore ∧ -l.zerosAfter ≤ point then
    if point ≤ 0 then
      String.ofList ('0' :: '.' :: List.replicate (-point).toNat '0' ++ digits)
    else
      let whole := digits.take point.toNat ++ List.replicate (point.toNat - digits.length) '0'
      let part := digits.drop point.toNat
      String.ofList (whole ++ '.' :: (if part.isEmpty then ['0'] else part))
  else
    let exponent := point - 1
    let shown := Nat.toDigits 10 exponent.natAbs
    let first := digits.take 1 ++ (if digits.length ≤ 1 then [] else '.' :: digits.drop 1)
    String.ofList (first ++ 'e' :: (if exponent < 0 then '-' else '+') ::
      List.replicate (l.exponentDigits - shown.length) '0' ++ shown)

def text : Binary64 → String
  | .nan => "nan"
  | .infinite negative => if negative then "-inf" else "inf"
  | .finite negative m q =>
    (if negative then "-" else "") ++ (if m = 0 then "0.0" else layout.write (shortest m q))

end Binary64

end ImageRollout
