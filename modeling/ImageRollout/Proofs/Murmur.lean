import Mathlib.Algebra.Order.Group.Int
import Mathlib.Data.Nat.Digits.Defs
import ImageRollout.Proofs.Resolution.Survey

/-! The hash of keys, and the draws made of it. The hash is the one that is laid down for words of 32 bits: a
    round for each whole block of four bytes, then what is left over, then the length, read as a signed
    number. Whatever the key, its magnitude fits into 31 bits and its draw can be drawn. -/

namespace ImageRollout

namespace Murmur

/-! ### The hash as it is laid down -/

/-- The number that bytes spell, the least significant first, as a word. -/
def littleEndian (bytes : List UInt8) : BitVec 32 :=
  BitVec.ofNat 32 (Nat.ofDigits 256 (bytes.map UInt8.toNat))

def scrambled (block : BitVec 32) : BitVec 32 :=
  (block * 0xcc9e2d51#32).rotateLeft 15 * 0x1b873593#32

/-- The state after a round with a block. -/
def mixed (state block : BitVec 32) : BitVec 32 :=
  (state ^^^ scrambled block).rotateLeft 13 * 5#32 + 0xe6546b64#32

/-- The state after a round with each whole block of four bytes. -/
def rounds (state : BitVec 32) (bytes : List UInt8) : BitVec 32 :=
  (List.range (bytes.length / 4)).foldl (fun state i => mixed state (littleEndian ((bytes.drop (4 * i)).take 4))) state

/-- The bytes after the last whole block. -/
def leftOver (bytes : List UInt8) : List UInt8 :=
  bytes.drop (4 * (bytes.length / 4))

def avalanche (state : BitVec 32) : BitVec 32 :=
  let x := (state ^^^ (state >>> 16)) * 0x85ebca6b#32
  let y := (x ^^^ (x >>> 13)) * 0xc2b2ae35#32
  y ^^^ (y >>> 16)

/-- The hash of bytes with seed zero. -/
def laidDown (bytes : List UInt8) : BitVec 32 :=
  avalanche (rounds 0#32 bytes ^^^ scrambled (littleEndian (leftOver bytes)) ^^^ BitVec.ofNat 32 bytes.length)

/-! ### Words -/

theorem or_shiftLeft {low : Nat} (high : Nat) {places : Nat} (h : low < 2 ^ places) :
    low ||| high <<< places = low + high * 2 ^ places := by
  rw [Nat.or_comm, ← Nat.shiftLeft_add_eq_or_of_lt h, Nat.shiftLeft_eq, Nat.add_comm]

theorem toNat_word (a b c d : UInt8) :
    (word a b c d).toNat = a.toNat + b.toNat * 2 ^ 8 + c.toNat * 2 ^ 16 + d.toNat * 2 ^ 24 := by
  have ha := a.toNat_lt
  have hb := b.toNat_lt
  have hc := c.toNat_lt
  have hd := d.toNat_lt
  have hshift : ∀ (byte : UInt8) (places : Nat), places ≤ 24 → byte.toNat <<< places % 2 ^ 32 = byte.toNat <<< places := by
    intro byte places hplaces
    refine Nat.mod_eq_of_lt ?_
    have hbyte := byte.toNat_lt
    have hpow : 2 ^ places ≤ 2 ^ 24 := Nat.pow_le_pow_right (by decide) hplaces
    rw [Nat.shiftLeft_eq]
    calc byte.toNat * 2 ^ places ≤ 255 * 2 ^ 24 := Nat.mul_le_mul (by omega) hpow
      _ < 2 ^ 32 := by decide
  have h₈ : (8 : UInt32).toNat % 32 = 8 := rfl
  have h₁₆ : (16 : UInt32).toNat % 32 = 16 := rfl
  have h₂₄ : (24 : UInt32).toNat % 32 = 24 := rfl
  unfold word
  simp only [UInt32.toNat_or, UInt32.toNat_shiftLeft, UInt8.toNat_toUInt32, h₈, h₁₆, h₂₄]
  rw [hshift b 8 (by decide), hshift c 16 (by decide), hshift d 24 (by decide), or_shiftLeft b.toNat (by omega),
    or_shiftLeft c.toNat (by omega), or_shiftLeft d.toNat (by omega)]

theorem toBitVec_word (a b c d : UInt8) : (word a b c d).toBitVec = littleEndian [a, b, c, d] := by
  have hvalue : Nat.ofDigits 256 [a.toNat, b.toNat, c.toNat, d.toNat] = (word a b c d).toNat := by
    rw [toNat_word]
    simp only [Nat.ofDigits_cons, Nat.ofDigits_nil]
    omega
  unfold littleEndian
  rw [List.map_cons, List.map_cons, List.map_cons, List.map_cons, List.map_nil, hvalue]
  exact ((BitVec.ofNat_toNat 32 _).trans (BitVec.setWidth_eq _)).symm

/-- Zeros after the most significant byte do not count. -/
theorem littleEndian_append_replicate (bytes : List UInt8) (n : Nat) :
    littleEndian (bytes ++ List.replicate n 0) = littleEndian bytes := by
  unfold littleEndian
  rw [List.map_append, List.map_replicate, UInt8.toNat_zero, Nat.ofDigits_append_replicate_zero]

theorem toBitVec_rotate (x : UInt32) {places : UInt32} (hpos : 0 < places.toNat) (h : places.toNat < 32) :
    (rotate x places).toBitVec = x.toBitVec.rotateLeft places.toNat := by
  have hback : (32 - places).toNat = 32 - places.toNat :=
    UInt32.toNat_sub_of_le _ _ (UInt32.le_iff_toNat_le.mpr h.le)
  have hleft : (places.toBitVec % 32).toNat = places.toNat % 32 := rfl
  have hright : ((32 - places).toBitVec % 32).toNat = 32 - places.toNat % 32 := by
    rw [BitVec.toNat_umod, UInt32.toNat_toBitVec, hback, Nat.mod_eq_of_lt h]
    exact Nat.mod_eq_of_lt (show 32 - places.toNat < 32 by omega)
  unfold rotate
  rw [UInt32.toBitVec_or, UInt32.toBitVec_shiftLeft, UInt32.toBitVec_shiftRight, BitVec.rotateLeft_def,
    BitVec.shiftLeft_eq', BitVec.ushiftRight_eq', hleft, hright]

theorem toBitVec_scramble (block : UInt32) : (scramble block).toBitVec = scrambled block.toBitVec := by
  unfold scramble scrambled
  rw [UInt32.toBitVec_mul, toBitVec_rotate _ (by decide) (by decide), UInt32.toBitVec_mul]
  rfl

theorem toBitVec_mix (state block : UInt32) : (mix state block).toBitVec = mixed state.toBitVec block.toBitVec := by
  unfold mix mixed
  rw [UInt32.toBitVec_add, UInt32.toBitVec_mul, toBitVec_rotate _ (by decide) (by decide), UInt32.toBitVec_xor,
    toBitVec_scramble]
  rfl

theorem toBitVec_finish (state : UInt32) : (finish state).toBitVec = avalanche state.toBitVec :=
  rfl

/-! ### Rounds -/

theorem rounds_of_short {bytes : List UInt8} (h : bytes.length < 4) (state : BitVec 32) : rounds state bytes = state := by
  unfold rounds
  rw [Nat.div_eq_of_lt h]
  rfl

theorem leftOver_of_short {bytes : List UInt8} (h : bytes.length < 4) : leftOver bytes = bytes := by
  unfold leftOver
  rw [Nat.div_eq_of_lt h]
  rfl

theorem length_block (a b c d : UInt8) (rest : List UInt8) :
    (a :: b :: c :: d :: rest).length / 4 = rest.length / 4 + 1 := by
  simp only [List.length_cons]
  omega

theorem rounds_block (state : BitVec 32) (a b c d : UInt8) (rest : List UInt8) :
    rounds state (a :: b :: c :: d :: rest) = rounds (mixed state (littleEndian [a, b, c, d])) rest := by
  unfold rounds
  rw [length_block, List.range_succ_eq_map, List.foldl_cons, List.foldl_map]
  rfl

theorem leftOver_block (a b c d : UInt8) (rest : List UInt8) : leftOver (a :: b :: c :: d :: rest) = leftOver rest := by
  unfold leftOver
  rw [length_block]
  rfl

/-- The last one to three bytes, where zeros stand for those that are missing. -/
theorem toBitVec_absorb_short (state : UInt32) {bytes : List UInt8} {a b c : UInt8} {n : Nat}
    (hshort : bytes.length < 4) (h : [a, b, c, 0] = bytes ++ List.replicate n 0) :
    (state ^^^ scramble (word a b c 0)).toBitVec =
      rounds state.toBitVec bytes ^^^ scrambled (littleEndian (leftOver bytes)) := by
  rw [UInt32.toBitVec_xor, toBitVec_scramble, toBitVec_word, h, littleEndian_append_replicate, rounds_of_short hshort,
    leftOver_of_short hshort]

/-- What is absorbed block after block is what the rounds come to, with what is left over scrambled in. -/
theorem toBitVec_absorb (state : UInt32) (bytes : List UInt8) :
    (absorb state bytes).toBitVec =
      rounds state.toBitVec bytes ^^^ scrambled (littleEndian (leftOver bytes)) := by
  fun_induction absorb state bytes with
  | case1 state =>
    -- Nothing is left over, which counts as zero, and zero scrambled is zero.
    have hzero : scrambled (littleEndian []) = 0#32 := rfl
    have hshort : ([] : List UInt8).length < 4 := by decide
    rw [rounds_of_short hshort, leftOver_of_short hshort, hzero, BitVec.xor_zero]
  | case2 state a => exact toBitVec_absorb_short (n := 3) state (by simp) rfl
  | case3 state a b => exact toBitVec_absorb_short (n := 2) state (by simp) rfl
  | case4 state a b c => exact toBitVec_absorb_short (n := 1) state (by simp) rfl
  | case5 state a b c d rest ih =>
    rw [ih, toBitVec_mix, toBitVec_word, rounds_block, leftOver_block]

theorem toBitVec_hashWord (bytes : List UInt8) : (hashWord bytes).toBitVec = laidDown bytes := by
  unfold hashWord laidDown
  rw [toBitVec_finish, UInt32.toBitVec_xor, toBitVec_absorb]
  rfl

/-- The hash of bytes is the word that is laid down for them, read in two's complement. -/
theorem hash_eq_toInt (bytes : List UInt8) : hash bytes = (laidDown bytes).toInt := by
  have hword : (laidDown bytes).toNat = (hashWord bytes).toNat := by
    rw [← toBitVec_hashWord]
    rfl
  unfold hash signed
  rw [BitVec.toInt_eq_toNat_cond, hword]
  split <;> split <;> omega

theorem hash_bounds (bytes : List UInt8) : -2 ^ 31 ≤ hash bytes ∧ hash bytes ≤ 2 ^ 31 - 1 := by
  rw [hash_eq_toInt]
  exact ⟨(laidDown bytes).le_toInt, Int.le_sub_one_of_lt (laidDown bytes).toInt_lt⟩

end Murmur

/-! ### Draws of keys -/

namespace Draw

theorem magnitude_eq (hash : Int) : (magnitude hash : Int) = if hash = -2 ^ 31 then 0 else |hash| := by
  have hlowest : (-2 ^ 31 : Int) = -0x80000000 := rfl
  unfold magnitude
  rw [hlowest]
  by_cases h : hash = -0x80000000
  · rw [if_pos h, if_pos h]
    rfl
  · rw [if_neg h, if_neg h, Int.natCast_natAbs]

/-- Of the hashes of 32 bits there is one whose magnitude takes all of them, and it counts as zero. -/
theorem magnitude_lt {hash : Int} (hlow : -2 ^ 31 ≤ hash) (hhigh : hash ≤ 2 ^ 31 - 1) : magnitude hash < 2 ^ 31 := by
  unfold magnitude
  split <;> omega

/-- How a draw is made of a hash. -/
structure MadeOf (draw hash : Int) : Prop where
  lowest : -2 ^ 31 ≤ hash
  highest : hash ≤ 2 ^ 31 - 1
  magnitude_eq : (magnitude hash : Int) = if hash = -2 ^ 31 then 0 else |hash|
  magnitude_lt : magnitude hash < 2 ^ 31
  draw_eq : draw = magnitude hash % 100 + 1
  least : 1 ≤ draw
  greatest : draw ≤ 100

theorem madeOf_hash (bytes : List UInt8) : MadeOf (ofBytes bytes) (Murmur.hash bytes) := by
  obtain ⟨hlow, hhigh⟩ := Murmur.hash_bounds bytes
  obtain ⟨hleast, hgreatest⟩ := isValid_iff.mp (isValid_ofHash (Murmur.hash bytes))
  refine ⟨hlow, hhigh, magnitude_eq _, magnitude_lt hlow hhigh, ?_, hleast, hgreatest⟩
  unfold ofBytes ofHash
  rw [Int.natCast_mod]
  rfl

end Draw

theorem bytesOf_eq_toUTF8 (s : String) : bytesOf s = s.toUTF8.data.toList := by
  have hencoded : s.toList.utf8Encode = s.toUTF8 := String.utf8Encode_toList
  rw [← hencoded, List.utf8Encode, List.data_toByteArray]
  rfl

/-- Every key has the hash that is laid down for its bytes, a text that of its bytes in UTF-8, and a draw from 1 to
    100 that is made of it. So selection never refuses the draw of a key, whatever the entries. -/
theorem keys_have_draws :
    (∀ bytes : List UInt8, Murmur.hash bytes = (Murmur.laidDown bytes).toInt ∧
      Draw.MadeOf (Draw.ofBytes bytes) (Murmur.hash bytes)) ∧
    (∀ s : String, bytesOf s = s.toUTF8.data.toList) ∧
    ∀ (key : Key) (imageType : String) (g : Generator) (entries : List Entry),
      ((Strategy.keyed key).draw imageType g).1 = Draw.ofBytes key.bytes ∧
        ∃ found, select entries ((Strategy.keyed key).draw imageType g).1 = .ok found := by
  refine ⟨fun bytes => ⟨Murmur.hash_eq_toInt bytes, Draw.madeOf_hash bytes⟩, bytesOf_eq_toUTF8,
    fun key imageType g entries => ⟨rfl, covering? entries key.draw, ?_⟩⟩
  exact select_of_isValid (Draw.isValid_ofHash _)

example : Murmur.hash (bytesOf "foo") = -156908512 := by decide

/-- The one hash whose magnitude does not fit is that of a key, and its draw is the first. -/
example : Murmur.hash [0x55, 0x07, 0x6f, 0x83] = -2 ^ 31 ∧ Draw.ofBytes [0x55, 0x07, 0x6f, 0x83] = 1 := by decide

end ImageRollout
