import IttyBitty.Proofs.Instruction.Encoding

/-!
# What a word keeps of an instruction

An instruction may hold any operand and any spare bits. Its word keeps the operand modulo
the number of operands that the mode has room for, and of the spare bits those that the
mode leaves unused; nothing else is lost, and the instructions that share a word are those
that agree in what is kept (`codec_exact`).
-/

namespace IttyBitty

namespace Mode

/-- The number of operands that the words of a mode tell apart. -/
def room : Mode → Int
  | .address => 4096
  | .shift => 16
  | .inherent | .selected => 1

/-- The bits below the group that hold neither a selector nor an operand. -/
def unused : Mode → Word
  | .inherent => 0x0FFF
  | .selected => 0x03FF
  | .shift => 0x03F0
  | .address => 0x0000

theorem operand_eq (mode : Mode) (n : Int) : mode.operand n = n % mode.room := by
  cases mode <;> simp only [operand, room] <;> omega

/-- A mask of `width` bits from bit `low` on is a difference of two remainders. -/
private theorem and_mask (n low width : Nat) :
    n &&& 2 ^ low * (2 ^ width - 1) = n % 2 ^ (low + width) - n % 2 ^ low := by
  have hsplit := Nat.mod_mul (x := n) (a := 2 ^ low) (b := 2 ^ width)
  rw [Nat.pow_add, hsplit, Nat.add_sub_cancel_left]
  apply Nat.eq_of_testBit_eq
  intro k
  rw [Nat.testBit_and, Nat.testBit_two_pow_mul, Nat.testBit_two_pow_mul,
    Nat.testBit_two_pow_sub_one, Nat.testBit_mod_two_pow, Nat.testBit_div_two_pow]
  by_cases hk : low ≤ k
  · simp [hk, Bool.and_comm]
  · simp [hk]

/-- **The spare bits of a mode** are those that it leaves unused, also of a negative number. -/
theorem spare_eq (mode : Mode) (n : Int) :
    mode.spare n = (Word.ofInt n &&& mode.unused).value := by
  have hbits := Word.value_ofInt n
  rw [Word.value_eq] at hbits ⊢
  rw [BitVec.toNat_and]
  generalize (Word.ofInt n).toNat = bits at hbits ⊢
  cases mode with
  | inherent =>
      have hmask : bits &&& 4095 = bits % 4096 - bits % 1 := and_mask bits 0 12
      show n % 4096 = ((bits &&& 4095 : Nat) : Int)
      omega
  | selected =>
      have hmask : bits &&& 1023 = bits % 1024 - bits % 1 := and_mask bits 0 10
      show n % 1024 = ((bits &&& 1023 : Nat) : Int)
      omega
  | shift =>
      have hmask : bits &&& 1008 = bits % 1024 - bits % 16 := and_mask bits 4 6
      show n % 1024 - n % 16 = ((bits &&& 1008 : Nat) : Int)
      omega
  | address =>
      show 0 = ((bits &&& 0 : Nat) : Int)
      rw [Nat.and_zero]
      rfl

end Mode

namespace Instruction

theorem same_iff {i j : Instruction} : i.same j = true ↔ i.op = j.op ∧ i.operand = j.operand := by
  rw [same, Bool.and_eq_true, beq_iff_eq, beq_iff_eq]

/-- Decoding tells words apart, because encoding takes it back. -/
theorem encode_eq_iff {i j : Instruction} :
    i.encode = j.encode ↔ decode i.encode = decode j.encode := by
  refine ⟨congrArg decode, fun h => ?_⟩
  rw [← encode_decode i.encode, h, encode_decode]

/-- **The codec is exact** over all integers: decoding loses nothing of a word, and encoding
loses of an instruction what its mode has no room for, and nothing else. -/
theorem codec_exact :
    (∀ w : Int, (decode (Word.ofInt w)).encode.value = w % 65536) ∧
    (∀ i : Instruction,
      (0 ≤ i.encode.value ∧ i.encode.value < 65536 ∧
        i.encode.value = 4096 * i.op.group + 1024 * i.op.selector
          + i.operand % i.op.mode.room + (Word.ofInt i.spare &&& i.op.mode.unused).value) ∧
      (decode i.encode).op = i.op ∧
      (decode i.encode).operand = i.operand % i.op.mode.room ∧
      (decode i.encode).spare = (Word.ofInt i.spare &&& i.op.mode.unused).value ∧
      ((decode i.encode).same i = true ↔ 0 ≤ i.operand ∧ i.operand < i.op.mode.room)) ∧
    ∀ i j : Instruction, i.encode = j.encode ↔
      i.op = j.op ∧ i.operand % i.op.mode.room = j.operand % j.op.mode.room ∧
      Word.ofInt i.spare &&& i.op.mode.unused = Word.ofInt j.spare &&& j.op.mode.unused := by
  refine ⟨fun w => ?_, fun i => ⟨⟨Word.value_nonneg _, Word.value_lt _, ?_⟩, ?_⟩, fun i j => ?_⟩
  · rw [encode_decode, Word.value_ofInt]
  · rw [value_encode, Mode.operand_eq, Mode.spare_eq]
  · rw [same_iff, decode_encode_eq, ← Mode.operand_eq, ← Mode.spare_eq]
    refine ⟨rfl, rfl, rfl, ?_⟩
    rw [Mode.operand_eq, and_iff_right rfl]
    have hroom : 0 < i.op.mode.room := by cases i.op.mode <;> decide
    exact ⟨fun h => h ▸ ⟨Int.emod_nonneg _ (Int.ne_of_gt hroom), Int.emod_lt_of_pos _ hroom⟩,
      fun h => Int.emod_eq_of_lt h.1 h.2⟩
  · rw [encode_eq_iff, decode_encode_eq, decode_encode_eq, Instruction.mk.injEq,
      Mode.operand_eq, Mode.operand_eq, Mode.spare_eq, Mode.spare_eq, Word.value_inj]

end Instruction

end IttyBitty
