import IttyBitty.Word
import Mathlib.Data.Nat.Bitwise

/-!
# The arithmetic unit in natural numbers

What each operation of the unit computes when its arguments are the values
of words, said with the arithmetic of natural numbers alone: no bit pattern
is left on the right-hand sides. A rotation is the sum of the two halves
that a shift to either side leaves, because these occupy disjoint places.
-/

namespace IttyBitty

namespace Word

theorem ofInt_natCast (a : Nat) : ofInt a = BitVec.ofNat 16 a := by
  simp [ofInt]

theorem toNat_ofInt_natCast (a : Nat) : (ofInt a).toNat = a % 65536 := by
  rw [ofInt_natCast, BitVec.toNat_ofNat]

theorem toNat_ofInt_of_lt {a : Nat} (h : a < 65536) : (ofInt a).toNat = a := by
  rw [toNat_ofInt_natCast, Nat.mod_eq_of_lt h]

theorem value_eq (w : Word) : w.value = (w.toNat : Int) := rfl

theorem value_inj {v w : Word} : v.value = w.value ↔ v = w := by
  rw [value_eq, value_eq, Int.natCast_inj, BitVec.toNat_inj]

end Word

namespace Alu

theorem toNat_add (a b : Nat) : (add a b).toNat = (a + b) % 65536 := by
  rw [add, ← Int.natCast_add, Word.toNat_ofInt_natCast]

/-- A difference that would be negative wraps around. -/
theorem toNat_sub {a b : Nat} (hb : b < 65536) :
    (sub a b).toNat = (a + 65536 - b) % 65536 := by
  rw [sub, Word.ofInt, BitVec.toNat_ofInt]
  omega

theorem toNat_and {a b : Nat} (ha : a < 65536) (hb : b < 65536) :
    (and a b).toNat = a &&& b := by
  rw [and, BitVec.toNat_and, Word.toNat_ofInt_of_lt ha, Word.toNat_ofInt_of_lt hb]

theorem toNat_or {a b : Nat} (ha : a < 65536) (hb : b < 65536) :
    (or a b).toNat = a ||| b := by
  rw [or, BitVec.toNat_or, Word.toNat_ofInt_of_lt ha, Word.toNat_ofInt_of_lt hb]

theorem toNat_xor {a b : Nat} (ha : a < 65536) (hb : b < 65536) :
    (xor a b).toNat = a ^^^ b := by
  rw [xor, BitVec.toNat_xor, Word.toNat_ofInt_of_lt ha, Word.toNat_ofInt_of_lt hb]

theorem toNat_not {a : Nat} (ha : a < 65536) : (not a).toNat = 65535 - a := by
  rw [not, BitVec.toNat_not, Word.toNat_ofInt_of_lt ha]

/-- The sign bit tells the upper half of the words from the lower one. -/
theorem isNegative_iff {a : Nat} (ha : a < 65536) :
    isNegative a = true ↔ 32768 ≤ a := by
  rw [isNegative, BitVec.msb_eq_decide, decide_eq_true_iff,
    Word.toNat_ofInt_of_lt ha]

/-! ## Shifts and rotations by less than sixteen places -/

theorem toNat_shiftLeft {a n : Nat} (ha : a < 65536) (hn : n < 16) :
    (shiftLeft a n).toNat = a * 2 ^ n % 65536 := by
  rw [shiftLeft, if_neg (by omega), BitVec.toNat_shiftLeft,
    Word.toNat_ofInt_of_lt ha, Nat.shiftLeft_eq]

theorem toNat_shiftRight {a n : Nat} (ha : a < 65536) (hn : n < 16) :
    (shiftRight a n).toNat = a / 2 ^ n := by
  rw [shiftRight, if_neg (by omega), BitVec.toNat_ushiftRight,
    Word.toNat_ofInt_of_lt ha, Nat.shiftRight_eq_div_pow]

/-- The bits that `n` places to the left stay inside sixteen are a multiple
of `2 ^ n`. -/
private theorem mul_two_pow_mod (a : Nat) {n : Nat} (hn : n ≤ 16) :
    a * 2 ^ n % 65536 = 2 ^ n * (a % 2 ^ (16 - n)) := by
  rw [show (65536 : Nat) = 2 ^ n * 2 ^ (16 - n) by
    rw [← Nat.pow_add, Nat.add_sub_cancel' hn]]
  rw [Nat.mul_comm a, Nat.mul_mod_mul_left]

private theorem div_two_pow_lt {a n : Nat} (ha : a < 65536) (hn : n ≤ 16) :
    a / 2 ^ (16 - n) < 2 ^ n := by
  rw [Nat.div_lt_iff_lt_mul (Nat.two_pow_pos _), ← Nat.pow_add,
    Nat.add_sub_cancel' hn]
  exact ha

/-- The two halves of a rotation share no bit, so that their disjunction is
their sum. -/
private theorem halves_or {a n : Nat} (ha : a < 65536) (hn : n ≤ 16) :
    (a * 2 ^ n % 65536 ||| a / 2 ^ (16 - n))
      = a * 2 ^ n % 65536 + a / 2 ^ (16 - n) := by
  rw [mul_two_pow_mod a hn]
  exact (Nat.two_pow_add_eq_or_of_lt (div_two_pow_lt ha hn) _).symm

theorem toNat_rotateLeft {a n : Nat} (ha : a < 65536) (hn : n < 16) :
    (rotateLeft a n).toNat = a * 2 ^ n % 65536 + a / 2 ^ (16 - n) := by
  have hplaces : ((n : Int) % 16).toNat = n := by omega
  rw [rotateLeft, hplaces, BitVec.toNat_rotateLeft, Word.toNat_ofInt_of_lt ha,
    Nat.mod_eq_of_lt hn, Nat.shiftLeft_eq, Nat.shiftRight_eq_div_pow]
  exact halves_or ha (by omega)

theorem toNat_rotateRight {a n : Nat} (ha : a < 65536) (hn : n < 16) :
    (rotateRight a n).toNat = a / 2 ^ n + a * 2 ^ (16 - n) % 65536 := by
  have hplaces : ((n : Int) % 16).toNat = n := by omega
  rw [rotateRight, hplaces, BitVec.toNat_rotateRight,
    Word.toNat_ofInt_of_lt ha, Nat.mod_eq_of_lt hn, Nat.shiftLeft_eq,
    Nat.shiftRight_eq_div_pow, Nat.or_comm, Nat.add_comm]
  -- a rotation to the right is the one by the missing places to the left
  have h := halves_or (n := 16 - n) ha (by omega)
  rwa [show 16 - (16 - n) = n by omega] at h

end Alu

end IttyBitty
