import ImageRollout.Text.Digits

/-! Universally unique identifiers: numbers of 128 bits, written in five groups of hexadecimal digits. -/

namespace ImageRollout

abbrev Uuid := BitVec 128

namespace Uuid

open Text

/-- The canonical text: groups of 8, 4, 4, 4 and 12 small digits. -/
def text (u : Uuid) : String :=
  let digits := hexDigits 32 u.toNat
  let group (start size : Nat) : List Char := (digits.drop start).take size
  String.ofList (group 0 8 ++ '-' :: group 8 4 ++ '-' :: group 12 4 ++ '-' :: group 16 4 ++ '-' :: group 20 12)

/-- The number of 32 digits in either case. -/
def ofDigits? (cs : List Char) : Option Uuid :=
  if cs.length = 32 then (cs.mapM hexDigit?).map fun digits => BitVec.ofNat 128 (ofDigits 16 digits)
  else none

/-- The number of five groups joined by hyphens. -/
def ofGroups? (cs : List Char) : Option Uuid :=
  if cs.length = 36 ∧ cs[8]? = some '-' ∧ cs[13]? = some '-' ∧ cs[18]? = some '-' ∧ cs[23]? = some '-' then
    ofDigits? (cs.filter (· != '-'))
  else none

/-- The identifier that a text is: digits alone, or groups as they are, in braces or as a name of the
    uuid scheme. -/
def ofText? (s : String) : Option Uuid :=
  let cs := s.toList
  let scheme := "urn:uuid:".toList
  if cs.length = 32 then ofDigits? cs
  else if cs.length = 38 ∧ cs.head? = some '\x7b' ∧ cs.getLast? = some '\x7d' then
    ofGroups? ((cs.drop 1).take 36)
  else if cs.length = 45 ∧ scheme.isPrefixOf cs then ofGroups? (cs.drop 9)
  else ofGroups? cs

end Uuid

end ImageRollout
