import IttyBitty.Instruction.Basic
import IttyBitty.Word

/-!
# Words as instructions

Every word is some instruction. The fields of a word, from the left, are the group in four bits,
the selector in two, and ten more bits; an address takes the twelve bits after the group and a
shift amount the last four. The bits that a mode leaves over are kept as spare bits, so that
decoding loses nothing: `encode_decode`.
-/

namespace IttyBitty

namespace Mode

/-- The operand that a word of this mode holds. -/
def operand (n : Int) : Mode → Int
  | .address => n % 4096
  | .shift => n % 16
  | _ => 0

/-- The unused bits of a word of this mode, in place. -/
def spare (n : Int) : Mode → Int
  | .inherent => n % 4096
  | .selected => n % 1024
  | .shift => n % 1024 - n % 16
  | .address => 0

end Mode

namespace Instruction

/-- The instruction that a word stands for. -/
def decode (w : Word) : Instruction :=
  let op := Op.ofCode (w.toNat / 4096) (w.toNat / 1024 % 4)
  { op, operand := op.mode.operand w.value, spare := op.mode.spare w.value }

/-- The word of an instruction; bits of the fields that do not fit are dropped. -/
def encode (i : Instruction) : Word :=
  Word.ofInt (4096 * i.op.group + 1024 * i.op.selector + i.op.mode.operand i.operand
    + i.op.mode.spare i.spare)

/-- Decoding loses nothing. -/
theorem encode_decode (w : Word) : (decode w).encode = w := by
  apply BitVec.eq_of_toNat_eq
  have bound := w.isLt
  simp only [decode, encode, Word.ofInt, BitVec.toNat_ofInt, Word.value]
  generalize group : w.toNat / 4096 = g at *
  generalize selector : w.toNat / 1024 % 4 = s at *
  rcases g with _ | _ | _ | _ | _ | _ | _ | _ | _ | _ | _ | _ | _ | _ | _ | _ | g <;> try omega
  case succ.zero | succ.succ.zero =>
    rcases s with _ | _ | _ | _ | s <;>
      simp [Op.ofCode, Op.group, Op.selector, Op.mode, Mode.operand, Mode.spare] <;> omega
  all_goals
    simp [Op.ofCode, Op.group, Op.selector, Op.mode, Mode.operand, Mode.spare]
    omega

end Instruction

end IttyBitty
