import ImageRollout.Json.Value
import ImageRollout.Number.Shortest

/-! Spans of time in seconds. -/

namespace ImageRollout

/-- A number of seconds, whole or not. -/
inductive Seconds where
  | whole (n : Int)
  | real (x : Binary64)
  deriving DecidableEq, Repr

namespace Seconds

def text : Seconds → String
  | .whole n => Text.ofInt n
  | .real x => x.text

def toJson : Seconds → Json
  | .whole n => .int n
  | .real x => .real x

def microsecondsPerSecond : Nat := 1000000

/-- A finite number of seconds in whole microseconds. What is left of a second is multiplied as a
    floating-point number, and the product rounded to the nearest integer, the even one of two. -/
def microseconds? : Seconds → Option Int
  | .whole n => some (n * microsecondsPerSecond)
  | .real x => do
    let (negative, num, den) ← x.ratio?
    let (_, partNum, partDen) ← (Binary64.ofRatio false (num % den * microsecondsPerSecond) den).ratio?
    let magnitude : Int := num / den * microsecondsPerSecond + Binary64.roundHalfEven partNum partDen
    some (if negative then -magnitude else magnitude)

/-- Whether no time is left. -/
def isOver : Seconds → Bool
  | .whole n => decide (n ≤ 0)
  | .real x => x.atMostZero

end Seconds

end ImageRollout
