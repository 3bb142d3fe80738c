import ImageRollout.Plan.Entry

/-! Which entry of a plan a draw falls to. The entries are taken in ascending order of their shares,
    equal shares in plan order, and each one covers as many draws as its share, directly after the
    ones before it. Shares of 10, 30 and 60 cover the draws 1 to 10, 11 to 40 and 41 to 100. -/

namespace ImageRollout

/-- The entries in ascending order of their shares; entries of one share keep their order. -/
def ascending (entries : List Entry) : List Entry :=
  entries.mergeSort fun a b => decide (a.share.val ≤ b.share.val)

/-- An entry with its first and last draw. An entry without share ends before it starts. -/
structure Span where
  entry : Entry
  low : Nat
  high : Nat
  deriving DecidableEq, Repr

def Span.covers (s : Span) (draw : Int) : Bool :=
  decide (s.low ≤ draw ∧ draw ≤ s.high)

/-- The spans of entries in their order, after the draws that are covered already. -/
def spansFrom (covered : Nat) : List Entry → List Span
  | [] => []
  | e :: rest => ⟨e, covered + 1, covered + e.share.val⟩ :: spansFrom (covered + e.share.val) rest

def spans (entries : List Entry) : List Span :=
  spansFrom 0 (ascending entries)

/-- The entry that a draw falls to, if the shares reach that far. -/
def covering? (entries : List Entry) (draw : Int) : Option Entry :=
  ((spans entries).find? fun s => s.covers draw).map Span.entry

end ImageRollout
