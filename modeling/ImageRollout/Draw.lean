import ImageRollout.Murmur

/-! Draws: numbers from 1 to 100 that decide which version a workload gets. A strategy says where
    they come from: a generator, or the workload's key, which always gives the same draw. -/

namespace ImageRollout

namespace Draw

def least : Int := 1

def greatest : Int := 100

def isValid (draw : Int) : Bool :=
  decide (least ≤ draw ∧ draw ≤ greatest)

/-- The magnitude of a hash; the one hash whose magnitude does not fit into 31 bits counts as zero. -/
def magnitude (hash : Int) : Nat :=
  if hash = -0x80000000 then 0 else hash.natAbs

def ofHash (hash : Int) : Int :=
  (magnitude hash % 100 : Nat) + 1

def ofBytes (bytes : List UInt8) : Int :=
  ofHash (Murmur.hash bytes)

end Draw

/-- The bytes of a text in the Unicode encoding of variable width. -/
def bytesOf (s : String) : List UInt8 :=
  s.toList.flatMap String.utf8EncodeChar

theorem bytesOf_append (s t : String) : bytesOf (s ++ t) = bytesOf s ++ bytesOf t := by
  simp [bytesOf]

/-- The key of a workload, which is not empty. -/
structure Key where
  bytes : List UInt8
  bytes_ne_nil : bytes ≠ []
  deriving DecidableEq, Repr

def Key.ofBytes? (bytes : List UInt8) : Option Key :=
  if h : bytes ≠ [] then some ⟨bytes, h⟩ else none

def Key.draw (k : Key) : Int :=
  Draw.ofBytes k.bytes

/-- A generator of numbers: the ones it is still to give, and the one it gives when they have run
    out. Nothing holds its numbers to any range. -/
structure Generator where
  pending : List Int
  thereafter : Int
  deriving DecidableEq, Repr

def Generator.next (g : Generator) : Int × Generator :=
  match g.pending with
  | [] => (g.thereafter, g)
  | n :: rest => (n, ⟨rest, g.thereafter⟩)

/-- Where draws come from. -/
inductive Strategy where
  /-- One draw for every image type, that of the key. -/
  | keyed (key : Key)
  /-- A new number of the generator for each draw. -/
  | generated
  /-- A number laid down for each image type. -/
  | assigned (draws : String → Int)

/-- The draw for an image type, and the generator after it. -/
def Strategy.draw (strategy : Strategy) (imageType : String) (g : Generator) : Int × Generator :=
  match strategy with
  | .keyed key => (key.draw, g)
  | .generated => g.next
  | .assigned draws => (draws imageType, g)

/-- A request for a draw: the image type and the range asked for. -/
structure Ask where
  imageType : String
  low : Int := Draw.least
  high : Int := Draw.greatest
  deriving DecidableEq, Repr

inductive Selection where
  | random
  | deterministic
  deriving DecidableEq, Repr

def Selection.name : Selection → String
  | .random => "random"
  | .deterministic => "deterministic"

def Selection.ofName? (s : String) : Option Selection :=
  [random, deterministic].find? fun selection => selection.name = s

end ImageRollout
