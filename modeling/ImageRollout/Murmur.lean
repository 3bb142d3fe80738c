/-! The 32-bit murmur hash, version 3, with seed zero: blocks of four bytes are mixed in one after the
    other, then what is left of the last block, then the length. -/

namespace ImageRollout.Murmur

def rotate (x places : UInt32) : UInt32 :=
  (x <<< places) ||| (x >>> (32 - places))

def scramble (block : UInt32) : UInt32 :=
  rotate (block * 0xcc9e2d51) 15 * 0x1b873593

def mix (state block : UInt32) : UInt32 :=
  rotate (state ^^^ scramble block) 13 * 5 + 0xe6546b64

/-- The word of four bytes, the least significant first. -/
def word (a b c d : UInt8) : UInt32 :=
  a.toUInt32 ||| (b.toUInt32 <<< 8) ||| (c.toUInt32 <<< 16) ||| (d.toUInt32 <<< 24)

/-- The state after all bytes. The last one to three bytes are scrambled but not turned in. -/
def absorb (state : UInt32) : List UInt8 → UInt32
  | [] => state
  | [a] => state ^^^ scramble (word a 0 0 0)
  | [a, b] => state ^^^ scramble (word a b 0 0)
  | [a, b, c] => state ^^^ scramble (word a b c 0)
  | a :: b :: c :: d :: rest => absorb (mix state (word a b c d)) rest

def finish (state : UInt32) : UInt32 :=
  let x := (state ^^^ (state >>> 16)) * 0x85ebca6b
  let y := (x ^^^ (x >>> 13)) * 0xc2b2ae35
  y ^^^ (y >>> 16)

def hashWord (bytes : List UInt8) : UInt32 :=
  finish (absorb 0 bytes ^^^ UInt32.ofNat bytes.length)

/-- A word read as a number in two's complement. -/
def signed (x : UInt32) : Int :=
  if x.toNat < 0x80000000 then x.toNat else (x.toNat : Int) - 0x100000000

def hash (bytes : List UInt8) : Int :=
  signed (hashWord bytes)

end ImageRollout.Murmur
