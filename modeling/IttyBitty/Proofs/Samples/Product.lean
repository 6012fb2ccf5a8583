import IttyBitty.Proofs.Samples.Rules

/-!
# The sample that multiplies

The program reads two words and adds the first to a sum as often as the second says, which
it counts down in the cell it was stored in. So the sum is the product, as far as sixteen
bits go (`Product.multiplies`).
-/

namespace IttyBitty.Product

/-- The source of the program. -/
def source : Source := .ofLines [
  "// Read a and b, print a * b by repeated addition",
  "        jmp     start",
  "a:      dw      0000",
  "b:      dw      0000",
  "p:      dw      0000",
  "one:    dw      0001",
  "",
  "start:  readH",
  "        store   a",
  "        readH",
  "        store   b",
  "loop:   load    b               // while b != 0",
  "        jmpe    done",
  "        sub     one",
  "        store   b",
  "        load    p               // p += a",
  "        add     a",
  "        store   p",
  "        jmp     loop",
  "done:   load    p",
  "        printH",
  "        halt"]

/-- The words of the program, with its three variables. -/
def cells (a b p : Word) : List Word :=
  [0xC005, a, b, p, 1, 0x1000, 0x4001, 0x1000, 0x4002, 0x3002, 0xD011, 0x6004, 0x4002, 0x3003,
    0x5001, 0x4003, 0xC009, 0x3003, 0x1800, 0x0000]

theorem words_source :
    (Assembly.assemble source).toOption.map Assembly.Program.words = some (cells 0 0 0) := by
  simp only [source, Source.ofLines, List.map_cons, List.map_nil]
  -- a line is replaced by its characters, because decoding it would take far longer
  repeat rw [String.toList_ofList]
  rfl

/-- The program at one of its instructions. -/
def scene (pc : Nat) (acc a b p : Word) (unread : List RawText) (written : RawText) : Scene :=
  ⟨pc, acc, cells a b p, unread, written⟩

open Scene

variable {acc a b p : Word} {n : Nat} {unread rest : List RawText} {first second : RawText}
  {written : RawText}

/-! ## Turns -/

/-- A turn adds the first word to the sum and counts the second one down. -/
theorem leads_turn (hb : b ≠ 0) :
    Leads 8 (scene 9 acc a b p unread written)
      (scene 9 (p + a) a (b - 1) (p + a) unread written) := calc
  Leads 1 (scene 9 acc a b p unread written) (scene 10 b a b p unread written) :=
    .combine 2 rfl rfl rfl rfl
  Leads 1 _ (scene 11 b a b p unread written) :=
    .jump 17 rfl (congrArg some (beq_eq_false_iff_ne.mpr hb)) rfl
  Leads 1 _ (scene 12 (b - 1) a b p unread written) := .combine 4 rfl rfl rfl rfl
  Leads 1 _ (scene 13 (b - 1) a (b - 1) p unread written) := .store 2 rfl rfl
  Leads 1 _ (scene 14 p a (b - 1) p unread written) := .combine 3 rfl rfl rfl rfl
  Leads 1 _ (scene 15 (p + a) a (b - 1) p unread written) := .combine 1 rfl rfl rfl rfl
  Leads 1 _ (scene 16 (p + a) a (b - 1) (p + a) unread written) := .store 3 rfl rfl
  Leads 1 _ (scene 9 (p + a) a (b - 1) (p + a) unread written) := .jump 9 rfl rfl rfl

/-- The turns end when the second word is used up, and have added the product. -/
theorem leads_turns (hn : n < 65536) :
    Leads (8 * n + 2) (scene 9 acc a (BitVec.ofNat 16 n) p unread written)
      (scene 17 0 a 0 (p + a * BitVec.ofNat 16 n) unread written) := by
  -- what the sum and the product of the words that are left make up stays the same
  induction n generalizing acc p with
  | zero =>
      have hproduct : p + a * BitVec.ofNat 16 0 = p := by
        rw [BitVec.mul_zero, BitVec.add_zero]
      rw [hproduct]
      exact calc
        Leads 1 (scene 9 acc a 0 p unread written) (scene 10 0 a 0 p unread written) :=
          .combine 2 rfl rfl rfl rfl
        Leads 1 _ (scene 17 0 a 0 p unread written) := .jump 17 rfl rfl rfl
  | succ n ih =>
      have hne : BitVec.ofNat 16 (n + 1) ≠ 0 := by
        rw [Ne, ← BitVec.toNat_inj, BitVec.toNat_ofNat]
        show ¬ (n + 1) % 65536 = 0
        omega
      have hpred : BitVec.ofNat 16 (n + 1) - 1 = BitVec.ofNat 16 n := by
        rw [BitVec.ofNat_add]
        exact BitVec.add_sub_cancel _ _
      have hproduct : p + a * BitVec.ofNat 16 (n + 1) = p + a + a * BitVec.ofNat 16 n := by
        rw [BitVec.ofNat_add, BitVec.mul_add, BitVec.mul_one, BitVec.add_comm (a * _),
          BitVec.add_assoc]
      have hturn : Leads 8 (scene 9 acc a (BitVec.ofNat 16 (n + 1)) p unread written)
          (scene 9 (p + a) a (BitVec.ofNat 16 n) (p + a) unread written) := by
        rw [← hpred]
        exact leads_turn hne
      rw [hproduct, Nat.mul_succ, Nat.add_right_comm, Nat.add_comm]
      exact hturn.trans (ih (by omega))

/-- The two words are read in front of the first turn. -/
theorem leads_start {rest : List RawText} (ha : Op.readH.typed (RawText.trim first) = .ok a)
    (hb : Op.readH.typed (RawText.trim second) = .ok b) :
    Leads 5 (scene 0 0 0 0 0 (first :: second :: rest) written)
      (scene 9 b a b 0 rest written) := calc
  Leads 1 (scene 0 0 0 0 0 (first :: second :: rest) written)
      (scene 5 0 0 0 0 (first :: second :: rest) written) := .jump 5 rfl rfl rfl
  Leads 1 _ (scene 6 a 0 0 0 (second :: rest) written) := .read .readH (by decide) rfl rfl ha rfl
  Leads 1 _ (scene 7 a a 0 0 (second :: rest) written) := .store 1 rfl rfl
  Leads 1 _ (scene 8 b a 0 0 rest written) := .read .readH (by decide) rfl rfl hb rfl
  Leads 1 _ (scene 9 b a b 0 rest written) := .store 2 rfl rfl

/-! ## From the source on -/

/-- **The program prints the product of two words** modulo 2^16, for all of them and in any
spelling. It takes eight steps each time it adds. -/
theorem multiplies {input : Input} {output : Output} (hinput : input.Works)
    (houtput : output.mode = .works) {a b : Nat} (ha : Op.readH.Says first a)
    (hb : Op.readH.Says second b) (htoRead : input.toRead = first :: second :: rest) :
    source.Ends input output (8 * b + 10) none rest
      (output.text ++ Table.wordLine (a * b % 65536)) := by
  refine Source.ends_of_words words_source (by decide) hinput houtput ?_
  rw [htoRead]
  obtain ⟨-, ha⟩ := ha.typed_ofNat
  obtain ⟨hlt, hb⟩ := hb.typed_ofNat
  have hproduct : (0#16 + BitVec.ofNat 16 a * BitVec.ofNat 16 b).toNat = a * b % 65536 := by
    rw [BitVec.zero_add, ← BitVec.ofNat_mul, BitVec.toNat_ofNat]
  rw [← hproduct]
  refine ((leads_start ha hb).trans (leads_turns hlt)).ends ?_ (by omega : _ = 5 + (8 * b + 2) + 3)
  exact ends_printed 3 rfl rfl rfl rfl

/-- Five times seven, in two spellings with blanks around them. -/
theorem multiplies_five_seven :
    let input : Input := .ofText " 5\n0007 \nnot read\n"
    input.Works ∧ Op.readH.Says " 5\n" (5 : Nat) ∧
      Op.readH.Says "0007 \n" (7 : Nat) ∧
      source.Ends input {} 66 none ["not read\n"] "0023\n" := by
  have hworks := Input.works_ofText " 5\n0007 \nnot read\n"
  have hfive : Op.readH.Says " 5\n" (5 : Nat) := ⟨5, by decide, rfl⟩
  have hseven : Op.readH.Says "0007 \n" (7 : Nat) := ⟨7, by decide, rfl⟩
  exact ⟨hworks, hfive, hseven, multiplies hworks rfl hfive hseven (by decide)⟩

end IttyBitty.Product
