import IttyBitty.Instruction.Codec
import IttyBitty.Proofs.Word.Arithmetic

/-!
# Encoded instructions

The word of an instruction is the sum of its fields, each of which stays in its
own place; so decoding gives back what the fields have room for, and the whole
instruction if its operand fits and its spare bits are zero.
-/

namespace IttyBitty.Instruction

/-- The operand fits into the place that the mode has for it. -/
def Fits (op : Op) (n : Nat) : Prop := op.mode.operand n = n

theorem fits_zero (op : Op) : Fits op 0 := by
  unfold Fits
  cases op.mode <;> rfl

theorem fits_of_shift {op : Op} {n : Nat} (h : op.mode = .shift) (hn : n < 16) :
    Fits op n := by
  unfold Fits
  rw [h, Mode.operand]
  omega

theorem fits_of_address {op : Op} {n : Nat} (h : op.mode = .address) (hn : n < 4096) :
    Fits op n := by
  unfold Fits
  rw [h, Mode.operand]
  omega

/-- The selector counts only in the modes that have one. -/
private theorem ofCode_of_selector (op : Op) {sel : Nat}
    (h : op.mode = .selected ∨ op.mode = .shift → sel = op.selector) :
    Op.ofCode op.group sel = op := by
  cases op
  all_goals
    first
    | rfl
    | obtain rfl := h (by decide)
      rfl

private theorem group_lt (op : Op) : op.group < 16 := by cases op <;> decide

private theorem selector_lt (op : Op) : op.selector < 4 := by cases op <;> decide

private theorem selector_eq_zero {op : Op} (h : op.mode = .inherent ∨ op.mode = .address) :
    op.selector = 0 := by
  cases op <;> first | rfl | simp [Op.mode] at h

/-- The fields of a word fill places of their own, so that their sum does not wrap. -/
theorem value_encode (i : Instruction) :
    i.encode.value = 4096 * i.op.group + 1024 * i.op.selector
      + i.op.mode.operand i.operand + i.op.mode.spare i.spare := by
  have hgroup := group_lt i.op
  have hsel := selector_lt i.op
  rw [encode, Word.value_ofInt]
  cases hmode : i.op.mode <;> simp only [Mode.operand, Mode.spare]
  case inherent | address =>
    have hzero : i.op.selector = 0 := selector_eq_zero (by simp [hmode])
    omega
  all_goals omega

/-- **Decoding an encoded instruction** gives it back with what its fields have room for. -/
theorem decode_encode_eq (i : Instruction) :
    decode i.encode = ⟨i.op, i.op.mode.operand i.operand, i.op.mode.spare i.spare⟩ := by
  have hvalue := value_encode i
  have hgroup := group_lt i.op
  have hsel := selector_lt i.op
  have hop : Op.ofCode (i.encode.toNat / 4096) (i.encode.toNat / 1024 % 4) = i.op := by
    rw [Word.value_eq] at hvalue
    cases hmode : i.op.mode <;> rw [hmode] at hvalue <;>
      simp only [Mode.operand, Mode.spare] at hvalue
    -- an address reaches into the places of the selector, which is zero there
    case inherent | address =>
      have hzero : i.op.selector = 0 := selector_eq_zero (by simp [hmode])
      rw [show i.encode.toNat / 4096 = i.op.group by omega]
      exact ofCode_of_selector i.op (by simp [hmode])
    all_goals
      rw [show i.encode.toNat / 4096 = i.op.group by omega]
      exact ofCode_of_selector i.op fun _ => by omega
  rw [decode]
  simp only [hop, hvalue, Instruction.mk.injEq, true_and]
  cases hmode : i.op.mode <;> simp only [Mode.operand, Mode.spare, true_and, and_true]
  case inherent | address =>
    have hzero : i.op.selector = 0 := selector_eq_zero (by simp [hmode])
    omega
  all_goals omega

/-- An instruction without spare bits whose operand fits comes back as it was. -/
theorem decode_encode {op : Op} {n : Nat} (h : Fits op n) :
    decode (encode { op, operand := n }) = { op, operand := n } := by
  rw [decode_encode_eq, Instruction.mk.injEq]
  refine ⟨rfl, h, ?_⟩
  cases hmode : op.mode <;> simp [Mode.spare]

end IttyBitty.Instruction
