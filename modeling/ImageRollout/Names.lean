/-! Sets of names as lists: in code point order, each name once. -/

namespace ImageRollout.Names

/-- Leaves one of each run of equal neighbours. -/
def collapse : List String → List String
  | [] => []
  | [name] => [name]
  | name :: next :: rest => if name = next then collapse (next :: rest) else name :: collapse (next :: rest)

/-- The distinct names of a list in code point order. -/
def ordered (names : List String) : List String :=
  collapse (names.mergeSort fun a b => decide (a ≤ b))

def without (names others : List String) : List String :=
  names.filter fun name => !others.contains name

def within (names others : List String) : List String :=
  names.filter fun name => others.contains name

end ImageRollout.Names
