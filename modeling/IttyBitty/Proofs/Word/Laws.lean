import IttyBitty.Proofs.Word.Arithmetic
import Mathlib.Algebra.Order.Ring.Int
import Mathlib.Data.Int.Bitwise
import Mathlib.Data.Int.ModEq

/-!
# Laws of the arithmetic unit

The unit takes integers of any size and sign and sees the low sixteen bits of
their two's complement. So it computes with remainders, its bitwise operations
are those of the integers, and the signed reading of a word is the only integer
in its range with these bits.

Rotations count the bits of a word around: bit `i` of a word that has been
rotated to the left by `n` places is bit `i - n` of the word before, whatever
integers these are (`Alu.around_rotateLeft`). All laws of rotations follow from
that one by arithmetic on the places.
-/

namespace IttyBitty

namespace Word

/-- Integers make the same word if they leave the same remainder. -/
theorem ofInt_eq_iff {a b : Int} : ofInt a = ofInt b ↔ a ≡ b [ZMOD 65536] := by
  rw [← value_inj, value_ofInt, value_ofInt]
  rfl

/-- The word of an integer has the low bits of its two's complement. -/
theorem getLsbD_ofInt (a : Int) {i : Nat} (hi : i < 16) :
    (ofInt a).getLsbD i = a.testBit i := by
  cases a with
  | ofNat n =>
      show (BitVec.ofNat 16 n).getLsbD i = n.testBit i
      rw [BitVec.getLsbD_ofNat, decide_eq_true hi, Bool.true_and]
  | negSucc n =>
      rw [ofInt, BitVec.ofInt_negSucc_eq_not_ofNat, BitVec.getLsbD_not, BitVec.getLsbD_ofNat,
        decide_eq_true hi, Bool.true_and, Bool.true_and]
      rfl

/-- Bit `i` of a word, whose bits are counted around. -/
def around (w : Word) (i : Int) : Bool := w.getLsbD (i % 16).toNat

theorem eq_of_around {v w : Word} (h : ∀ i, v.around i = w.around i) : v = w := by
  apply BitVec.eq_of_getLsbD_eq
  intro i hi
  have hplace : ((i : Int) % 16).toNat = i := by omega
  have hbit := h i
  rwa [around, around, hplace] at hbit

end Word

namespace Alu

variable {a b m n : Int}

/-! ## Remainders -/

theorem value_add (a b : Int) : (add a b).value = (a + b) % 65536 := Word.value_ofInt _

theorem value_sub (a b : Int) : (sub a b).value = (a - b) % 65536 := Word.value_ofInt _

theorem value_not (a : Int) : (not a).value = (-a - 1) % 65536 := by
  have hvalue := Word.value_ofInt a
  have hlt := (Word.ofInt a).isLt
  rw [Word.value] at hvalue
  rw [not, Word.value, BitVec.toNat_not]
  omega

/-! ## Words -/

theorem add_value (v w : Word) : add v.value w.value = v + w := by
  rw [add, Word.ofInt, BitVec.ofInt_add]
  exact congrArg₂ (· + ·) (Word.ofInt_value v) (Word.ofInt_value w)

theorem sub_value (v w : Word) : sub v.value w.value = v - w := by
  rw [sub, Int.sub_eq_add_neg, Word.ofInt, BitVec.ofInt_add, BitVec.ofInt_neg,
    BitVec.sub_eq_add_neg]
  exact congrArg₂ (· + -·) (Word.ofInt_value v) (Word.ofInt_value w)

theorem isNegative_value (w : Word) : isNegative w.value = w.msb :=
  congrArg BitVec.msb (Word.ofInt_value w)

/-! ## Bits -/

theorem and_eq_land (a b : Int) : and a b = Word.ofInt (Int.land a b) := by
  apply BitVec.eq_of_getLsbD_eq
  intro i hi
  rw [and, BitVec.getLsbD_and, Word.getLsbD_ofInt a hi, Word.getLsbD_ofInt b hi,
    Word.getLsbD_ofInt _ hi, Int.testBit_land]

theorem or_eq_lor (a b : Int) : or a b = Word.ofInt (Int.lor a b) := by
  apply BitVec.eq_of_getLsbD_eq
  intro i hi
  rw [or, BitVec.getLsbD_or, Word.getLsbD_ofInt a hi, Word.getLsbD_ofInt b hi,
    Word.getLsbD_ofInt _ hi, Int.testBit_lor]

theorem xor_eq_lxor (a b : Int) : xor a b = Word.ofInt (Int.xor a b) := by
  apply BitVec.eq_of_getLsbD_eq
  intro i hi
  rw [xor, BitVec.getLsbD_xor, Word.getLsbD_ofInt a hi, Word.getLsbD_ofInt b hi,
    Word.getLsbD_ofInt _ hi, Int.testBit_lxor]

theorem not_eq_lnot (a : Int) : not a = Word.ofInt (Int.lnot a) := by
  apply BitVec.eq_of_getLsbD_eq
  intro i hi
  rw [not, BitVec.getLsbD_not, Word.getLsbD_ofInt a hi, Word.getLsbD_ofInt _ hi,
    Int.testBit_lnot, decide_eq_true hi, Bool.true_and]

/-! ## The signed reading -/

/-- The signed reading is the only integer of its range with the bits of the argument. -/
theorem signed_eq_iff {s : Int} :
    signed a = s ↔ -32768 ≤ s ∧ s ≤ 32767 ∧ s ≡ a [ZMOD 65536] := by
  have hsigned : signed a = Int.bmod a 65536 := BitVec.toInt_ofInt a
  rw [hsigned, Int.bmod_def, Int.ModEq]
  split <;> omega

theorem isNegative_iff_signed : isNegative a = true ↔ signed a < 0 := by
  rw [isNegative, BitVec.msb_eq_toInt, decide_eq_true_iff, signed]

/-- The complement of a word is read as the opposite number less one. -/
theorem signed_not (a : Int) : signed (not a).value = -signed a - 1 := by
  obtain ⟨hlow, hhigh, hbits⟩ := signed_eq_iff.mp (rfl : signed a = signed a)
  rw [signed_eq_iff, value_not]
  refine ⟨by omega, by omega, ?_⟩
  rw [Int.ModEq] at hbits ⊢
  omega

/-! ## Shifts -/

/-- Bits that are shifted out are gone, and all of them are behind sixteen places. -/
theorem value_shiftLeft (a : Int) (n : Nat) : (shiftLeft a n).value = a * 2 ^ n % 65536 := by
  rw [shiftLeft]
  split
  · rename_i hn
    have hfactor : (2 : Int) ^ n = 65536 * 2 ^ (n - 16) := by
      rw [show (65536 : Int) = 2 ^ 16 by decide, ← pow_add, Nat.add_sub_cancel' hn]
    rw [hfactor, Int.mul_left_comm, Int.mul_emod_right]
    rfl
  · rw [Word.value, BitVec.toNat_shiftLeft, Nat.shiftLeft_eq, Int.natCast_emod, Int.natCast_mul,
      ← Word.value_eq, Word.value_ofInt, Int.natCast_pow]
    exact (Int.mod_modEq a 65536).mul_right _

theorem value_shiftRight (a : Int) (n : Nat) :
    (shiftRight a n).value = a % 65536 / 2 ^ n := by
  rw [shiftRight, ← Word.value_ofInt]
  split
  · rename_i hn
    have hpow : (2 : Int) ^ 16 ≤ 2 ^ n := pow_le_pow_right₀ (by decide) hn
    have hlt := (Word.ofInt a).value_lt
    exact (Int.ediv_eq_zero_of_lt (Word.value_nonneg _) (by omega)).symm
  · rw [Word.value, BitVec.toNat_ushiftRight, Nat.shiftRight_eq_div_pow, Int.natCast_ediv,
      Int.natCast_pow]
    rfl

theorem places_of_nonneg (h : 0 ≤ n) : places n = .ok n.toNat := if_neg (by omega)

theorem places_of_neg (h : n < 0) : places n = .error .negativeAmount := if_pos h

/-! ## Rotations -/

/-- **A rotation moves every bit by as many places**, counted around. -/
theorem around_rotateLeft (a n i : Int) :
    (rotateLeft a n).around i = (Word.ofInt a).around (i - n) := by
  have hi : (i % 16).toNat < 16 := by omega
  have hn : (n % 16).toNat % 16 = (n % 16).toNat := by omega
  rw [Word.around, Word.around, rotateLeft, BitVec.getLsbD_rotateLeft, hn, decide_eq_true hi,
    Bool.true_and, Bool.cond_decide]
  -- the places below the amount are filled from the other end
  split
  · rw [show 16 - (n % 16).toNat + (i % 16).toNat = ((i - n) % 16).toNat by omega]
  · rw [show (i % 16).toNat - (n % 16).toNat = ((i - n) % 16).toNat by omega]

theorem around_rotateRight (a n i : Int) :
    (rotateRight a n).around i = (Word.ofInt a).around (i + n) := by
  have hi : (i % 16).toNat < 16 := by omega
  have hn : (n % 16).toNat % 16 = (n % 16).toNat := by omega
  rw [Word.around, Word.around, rotateRight, BitVec.getLsbD_rotateRight, hn, decide_eq_true hi,
    Bool.true_and, Bool.cond_decide]
  split
  · rw [show (n % 16).toNat + (i % 16).toNat = ((i + n) % 16).toNat by omega]
  · rw [show (i % 16).toNat - (16 - (n % 16).toNat) = ((i + n) % 16).toNat by omega]

theorem rotateLeft_zero (a : Int) : rotateLeft a 0 = Word.ofInt a := by
  apply Word.eq_of_around
  intro i
  rw [around_rotateLeft, Int.sub_zero]

theorem rotateLeft_rotateLeft (a m n : Int) :
    rotateLeft (rotateLeft a m).value n = rotateLeft a (m + n) := by
  apply Word.eq_of_around
  intro i
  rw [around_rotateLeft, Word.ofInt_value, around_rotateLeft, around_rotateLeft, Int.sub_sub,
    Int.add_comm]

theorem rotateRight_eq_rotateLeft (a n : Int) : rotateRight a n = rotateLeft a (-n) := by
  apply Word.eq_of_around
  intro i
  rw [around_rotateRight, around_rotateLeft, Int.sub_neg]

/-! ## All laws -/

/-- What the unit makes of two integers does not depend on more than their remainders. -/
structure SeesLowBits (a b a' b' : Int) : Prop where
  add : Alu.add a b = Alu.add a' b'
  sub : Alu.sub a b = Alu.sub a' b'
  and : Alu.and a b = Alu.and a' b'
  or : Alu.or a b = Alu.or a' b'
  xor : Alu.xor a b = Alu.xor a' b'
  not : Alu.not a = Alu.not a'
  signed : Alu.signed a = Alu.signed a'
  negative : Alu.isNegative a = Alu.isNegative a'

theorem seesLowBits {a' b' : Int} (ha : a ≡ a' [ZMOD 65536]) (hb : b ≡ b' [ZMOD 65536]) :
    SeesLowBits a b a' b' := by
  have hwa := Word.ofInt_eq_iff.mpr ha
  have hwb := Word.ofInt_eq_iff.mpr hb
  constructor
  · exact Word.ofInt_eq_iff.mpr (ha.add hb)
  · exact Word.ofInt_eq_iff.mpr (ha.sub hb)
  · rw [Alu.and, Alu.and, hwa, hwb]
  · rw [Alu.or, Alu.or, hwa, hwb]
  · rw [Alu.xor, Alu.xor, hwa, hwb]
  · rw [Alu.not, Alu.not, hwa]
  · rw [Alu.signed, Alu.signed, hwa]
  · rw [Alu.isNegative, Alu.isNegative, hwa]

/-- The laws of the unit for two arguments and two amounts, which are any integers. -/
structure Lawful (a b m n : Int) : Prop where
  low : ∀ a' b', a ≡ a' [ZMOD 65536] → b ≡ b' [ZMOD 65536] → SeesLowBits a b a' b'
  /-- Sums and differences are reduced, and a difference takes a sum back; -/
  add : (Alu.add a b).value = (a + b) % 65536
  sub : (Alu.sub a b).value = (a - b) % 65536
  sub_add : (Alu.sub (Alu.add a b).value b).value = a % 65536
  /-- the bits are combined as those of the two's complements; -/
  and : (Alu.and a b).value = Int.land a b % 65536
  or : (Alu.or a b).value = Int.lor a b % 65536
  xor : (Alu.xor a b).value = Int.xor a b % 65536
  not : (Alu.not a).value = Int.lnot a % 65536
  /-- one integer of the signed range has the bits of the argument. -/
  signed : ∀ s, Alu.signed a = s ↔ -32768 ≤ s ∧ s ≤ 32767 ∧ s ≡ a [ZMOD 65536]
  negative : Alu.isNegative a = true ↔ Alu.signed a < 0
  signed_not : Alu.signed (Alu.not a).value = -Alu.signed a - 1
  /-- Shifts multiply and divide, by any power of two, and refuse negative amounts. -/
  shiftLeft : 0 ≤ n → ∃ w, shiftLeftBy a n = .ok w ∧ w.value = a * 2 ^ n.toNat % 65536
  shiftRight : 0 ≤ n → ∃ w, shiftRightBy a n = .ok w ∧ w.value = a % 65536 / 2 ^ n.toNat
  refused : n < 0 → shiftLeftBy a n = .error .negativeAmount ∧
    shiftRightBy a n = .error .negativeAmount
  /-- Rotations move the bits around, and so the integers act by them. -/
  rotated : ∀ i, (rotateLeft a n).around i = (Word.ofInt a).around (i - n)
  rotate_add : rotateLeft (rotateLeft a m).value n = rotateLeft a (m + n)
  rotate_neg : rotateRight a n = rotateLeft a (-n)
  rotate_back : (rotateRight (rotateLeft a n).value n).value = a % 65536

/-- **The unit is lawful on all integers.** -/
theorem lawful (a b m n : Int) : Lawful a b m n where
  low a' b' := seesLowBits
  add := value_add a b
  sub := value_sub a b
  sub_add := by
    rw [value_sub, value_add]
    omega
  and := by rw [and_eq_land, Word.value_ofInt]
  or := by rw [or_eq_lor, Word.value_ofInt]
  xor := by rw [xor_eq_lxor, Word.value_ofInt]
  not := by rw [not_eq_lnot, Word.value_ofInt]
  signed s := signed_eq_iff
  negative := isNegative_iff_signed
  signed_not := Alu.signed_not a
  shiftLeft h := ⟨_, by rw [shiftLeftBy, places_of_nonneg h]; rfl, value_shiftLeft a n.toNat⟩
  shiftRight h := ⟨_, by rw [shiftRightBy, places_of_nonneg h]; rfl, value_shiftRight a n.toNat⟩
  refused h := by
    rw [shiftLeftBy, shiftRightBy, places_of_neg h]
    exact ⟨rfl, rfl⟩
  rotated := around_rotateLeft a n
  rotate_add := rotateLeft_rotateLeft a m n
  rotate_neg := rotateRight_eq_rotateLeft a n
  rotate_back := by
    rw [rotateRight_eq_rotateLeft, rotateLeft_rotateLeft, Int.add_right_neg, rotateLeft_zero,
      Word.value_ofInt]

end Alu

end IttyBitty
