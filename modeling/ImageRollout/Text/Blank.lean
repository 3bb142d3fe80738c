/-! White space at the ends of texts. Two sets are in use: the white space of the Unicode standard,
    which numerals may be padded with, and the blanks, which also hold the four information
    separators and which names are stripped of. -/

namespace ImageRollout.Text

/-- White space of the Unicode standard. -/
def isSpace (c : Char) : Bool :=
  let n := c.toNat
  (9 ≤ n && n ≤ 13) || n == 0x20 || n == 0x85 || n == 0xA0 || n == 0x1680 ||
    (0x2000 ≤ n && n ≤ 0x200A) || n == 0x2028 || n == 0x2029 || n == 0x202F || n == 0x205F || n == 0x3000

/-- White space and the information separators, from the file to the unit separator. -/
def isBlank (c : Char) : Bool :=
  isSpace c || (0x1C ≤ c.toNat && c.toNat ≤ 0x1F)

/-- The characters between the first and the last one that `p` does not hold of. -/
def trimChars (p : Char → Bool) (cs : List Char) : List Char :=
  ((cs.dropWhile p).reverse.dropWhile p).reverse

/-- A text without the characters of `p` at its two ends. -/
def trim (p : Char → Bool) (s : String) : String :=
  String.ofList (trimChars p s.toList)

def strip (s : String) : String :=
  trim isBlank s

end ImageRollout.Text
