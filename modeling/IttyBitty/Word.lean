/-!
# Sixteen-bit words and the arithmetic on them

A `Word` is a bit pattern of sixteen bits. Every operation of the arithmetic unit is a function
on integers that depends on its arguments through their low sixteen bits only (`Word.ofInt`);
sums and differences wrap silently, and nothing keeps a carry or an overflow.

The only signed reading is `signed`, which the jump on a negative accumulator and the displays
use. Right shifts fill with zeros all the same.
-/

namespace IttyBitty

/-- A memory cell's worth of bits. -/
abbrev Word := BitVec 16

namespace Word

/-- The word whose bits are the low sixteen bits of `value` in two's complement. -/
def ofInt (value : Int) : Word := BitVec.ofInt 16 value

/-- The unsigned reading of a word, from 0 to 65535. -/
def value (w : Word) : Int := (w.toNat : Int)

theorem ofInt_value (w : Word) : ofInt w.value = w := by
  simp [ofInt, value]

theorem value_ofInt (a : Int) : (ofInt a).value = a % 65536 := by
  simp [ofInt, value, BitVec.toNat_ofInt]
  omega

theorem value_nonneg (w : Word) : 0 ≤ w.value := Int.natCast_nonneg _

theorem value_lt (w : Word) : w.value < 65536 := by
  have := w.isLt
  simp only [value]
  omega

end Word

/-! ## Signed readings -/

namespace Alu

/-- The integer from -32768 to 32767 with the same low sixteen bits as `a`. -/
def signed (a : Int) : Int := (Word.ofInt a).toInt

/-- Whether bit fifteen is set. -/
def isNegative (a : Int) : Bool := (Word.ofInt a).msb

/-! ## Arithmetic and logic -/

/-- The sum, wrapped to sixteen bits. -/
def add (a b : Int) : Word := Word.ofInt (a + b)

/-- The difference, wrapped to sixteen bits. -/
def sub (a b : Int) : Word := Word.ofInt (a - b)

/-- Bitwise conjunction. -/
def and (a b : Int) : Word := Word.ofInt a &&& Word.ofInt b

/-- Bitwise disjunction. -/
def or (a b : Int) : Word := Word.ofInt a ||| Word.ofInt b

/-- Bitwise exclusive disjunction. -/
def xor (a b : Int) : Word := Word.ofInt a ^^^ Word.ofInt b

/-- Bitwise complement. -/
def not (a : Int) : Word := ~~~ Word.ofInt a

/-! ## Shifts and rotations -/

/-- Left shift. Sixteen places or more leave no bit; the test keeps a huge amount from building
a huge intermediate number. -/
def shiftLeft (a : Int) (n : Nat) : Word :=
  if 16 ≤ n then 0 else Word.ofInt a <<< n

/-- Right shift with zeros coming in from the left. -/
def shiftRight (a : Int) (n : Nat) : Word :=
  if 16 ≤ n then 0 else Word.ofInt a >>> n

/-- Left rotation; an integer amount counts modulo sixteen. -/
def rotateLeft (a n : Int) : Word := (Word.ofInt a).rotateLeft (n % 16).toNat

/-- Right rotation; an integer amount counts modulo sixteen. -/
def rotateRight (a n : Int) : Word := (Word.ofInt a).rotateRight (n % 16).toNat

/-- Why a shift has no result: a negative amount is no number of places. -/
inductive ShiftError
  | negativeAmount
  deriving DecidableEq, Repr

/-- The number of places that an integer amount stands for. -/
def places (n : Int) : Except ShiftError Nat :=
  if n < 0 then .error .negativeAmount else .ok n.toNat

/-- Left shift by an integer amount. -/
def shiftLeftBy (a n : Int) : Except ShiftError Word :=
  (places n).map (shiftLeft a)

/-- Right shift by an integer amount. -/
def shiftRightBy (a n : Int) : Except ShiftError Word :=
  (places n).map (shiftRight a)

end Alu

end IttyBitty
