import IttyBitty.Proofs.Samples.Rules
import Mathlib.Data.Nat.Choose.Basic

/-!
# The sample that sums

The program reads a word and adds the numbers from 1 to it, as far as sixteen bits go. It
counts up, and stops at a number if the difference to it is negative. This is a signed
test, so it stops behind the last number only if that is 32768 at most; a larger one is
negative itself, and the program stops in front of the first turn (`Sum.sums`).
-/

namespace IttyBitty.Sum

/-- The source of the program. -/
def source : Source := .ofLines [
  "// Read n, print 1 + 2 + ... + n",
  "        jmp     start",
  "i:      dw      0000",
  "s:      dw      0000",
  "n:      dw      0000",
  "one:    dw      0001",
  "zero:   dw      0000",
  "",
  "start:  readH                   // n",
  "        store   n",
  "        load    one             // i = 1",
  "        store   i",
  "        load    zero            // s = 0",
  "        store   s",
  "loop:   load    n               // stop once i > n",
  "        sub     i",
  "        jmpl    done",
  "        load    s               // s += i",
  "        add     i",
  "        store   s",
  "        load    i               // i += 1",
  "        add     one",
  "        store   i",
  "        jmp     loop",
  "done:   load    s",
  "        printH",
  "        halt"]

/-- The words of the program, with its three variables. -/
def cells (i s n : Word) : List Word :=
  [0xC006, i, s, n, 1, 0, 0x1000, 0x4003, 0x3004, 0x4001, 0x3005, 0x4002, 0x3003, 0x6001,
    0xE016, 0x3002, 0x5001, 0x4002, 0x3001, 0x5004, 0x4001, 0xC00C, 0x3002, 0x1800, 0x0000]

theorem words_source :
    (Assembly.assemble source).toOption.map Assembly.Program.words = some (cells 0 0 0) := by
  simp only [source, Source.ofLines, List.map_cons, List.map_nil]
  -- a line is replaced by its characters, because decoding it would take far longer
  repeat rw [String.toList_ofList]
  rfl

/-- The program at one of its instructions. -/
def scene (pc : Nat) (acc i s n : Word) (unread : List RawText) (written : RawText) : Scene :=
  ⟨pc, acc, cells i s n, unread, written⟩

open Scene

variable {acc i s n : Word} {unread rest : List RawText} {line : RawText} {written : RawText}

/-! ## Turns -/

/-- A turn adds the number to the sum and goes on to the next one. -/
theorem leads_turn (h : (n - i).msb = false) :
    Leads 10 (scene 12 acc i s n unread written)
      (scene 12 (i + 1) (i + 1) (s + i) n unread written) := calc
  Leads 1 (scene 12 acc i s n unread written) (scene 13 n i s n unread written) :=
    .combine 3 rfl rfl rfl rfl
  Leads 1 _ (scene 14 (n - i) i s n unread written) := .combine 1 rfl rfl rfl rfl
  Leads 1 _ (scene 15 (n - i) i s n unread written) := .jump 22 rfl (congrArg some h) rfl
  Leads 1 _ (scene 16 s i s n unread written) := .combine 2 rfl rfl rfl rfl
  Leads 1 _ (scene 17 (s + i) i s n unread written) := .combine 1 rfl rfl rfl rfl
  Leads 1 _ (scene 18 (s + i) i (s + i) n unread written) := .store 2 rfl rfl
  Leads 1 _ (scene 19 i i (s + i) n unread written) := .combine 1 rfl rfl rfl rfl
  Leads 1 _ (scene 20 (i + 1) i (s + i) n unread written) := .combine 4 rfl rfl rfl rfl
  Leads 1 _ (scene 21 (i + 1) (i + 1) (s + i) n unread written) := .store 1 rfl rfl
  Leads 1 _ (scene 12 (i + 1) (i + 1) (s + i) n unread written) := .jump 12 rfl rfl rfl

/-- The turns end at a number if the difference to it is negative. -/
theorem leads_done (h : (n - i).msb = true) :
    Leads 3 (scene 12 acc i s n unread written)
      (scene 22 (n - i) i s n unread written) := calc
  Leads 1 (scene 12 acc i s n unread written) (scene 13 n i s n unread written) :=
    .combine 3 rfl rfl rfl rfl
  Leads 1 _ (scene 14 (n - i) i s n unread written) := .combine 1 rfl rfl rfl rfl
  Leads 1 _ (scene 22 (n - i) i s n unread written) := .jump 22 rfl (congrArg some h) rfl

/-- When the difference of two words is negative as a signed number. -/
theorem msb_sub_iff {n i : Nat} (hn : n < 65536) (hi : i < 65536) :
    (BitVec.ofNat 16 n - BitVec.ofNat 16 i).msb = true ↔
      32768 ≤ (65536 - i + n) % 65536 := by
  rw [BitVec.msb_eq_decide, decide_eq_true_iff, BitVec.toNat_sub, BitVec.toNat_ofNat,
    BitVec.toNat_ofNat, Nat.mod_eq_of_lt hn, Nat.mod_eq_of_lt hi]

/-- From a number on, with the sum of all numbers in front of it, the program comes to the
sum of all numbers. -/
theorem leads_turns {n i k : Nat} (hn : n ≤ 32768) (hi : 0 < i) (hk : i + k = n + 1) :
    Leads (10 * k + 3)
      (scene 12 acc (BitVec.ofNat 16 i) (BitVec.ofNat 16 (i * (i - 1) / 2)) (BitVec.ofNat 16 n)
        unread written)
      (scene 22 (BitVec.ofNat 16 n - BitVec.ofNat 16 (n + 1)) (BitVec.ofNat 16 (n + 1))
        (BitVec.ofNat 16 ((n + 1) * n / 2)) (BitVec.ofNat 16 n) unread written) := by
  -- `k` numbers are left to add, and `i` is the next of them
  induction k generalizing acc i with
  | zero =>
      obtain rfl : i = n + 1 := hk
      exact leads_done ((msb_sub_iff (by omega) (by omega)).mpr (by omega))
  | succ k ih =>
      have hpositive : (BitVec.ofNat 16 n - BitVec.ofNat 16 i).msb = false :=
        Bool.eq_false_iff.mpr (mt (msb_sub_iff (by omega) (by omega)).mp (by omega))
      have hturn : Leads 10
          (scene 12 acc (BitVec.ofNat 16 i) (BitVec.ofNat 16 (i * (i - 1) / 2))
            (BitVec.ofNat 16 n) unread written)
          (scene 12 (BitVec.ofNat 16 (i + 1)) (BitVec.ofNat 16 (i + 1))
            (BitVec.ofNat 16 ((i + 1) * (i + 1 - 1) / 2)) (BitVec.ofNat 16 n) unread written) := by
        rw [Nat.triangle_succ, BitVec.ofNat_add, BitVec.ofNat_add]
        exact leads_turn hpositive
      rw [Nat.mul_succ, Nat.add_right_comm, Nat.add_comm]
      exact hturn.trans (ih (by omega) (by omega))

/-- The word is read and the variables are set in front of the first turn. -/
theorem leads_start (hn : Op.readH.typed (RawText.trim line) = .ok n) :
    Leads 7 (scene 0 0 0 0 0 (line :: rest) written) (scene 12 0 1 0 n rest written) := calc
  Leads 1 (scene 0 0 0 0 0 (line :: rest) written) (scene 6 0 0 0 0 (line :: rest) written) :=
    .jump 6 rfl rfl rfl
  Leads 1 _ (scene 7 n 0 0 0 rest written) := .read .readH (by decide) rfl rfl hn rfl
  Leads 1 _ (scene 8 n 0 0 n rest written) := .store 3 rfl rfl
  Leads 1 _ (scene 9 1 0 0 n rest written) := .combine 4 rfl rfl rfl rfl
  Leads 1 _ (scene 10 1 1 0 n rest written) := .store 1 rfl rfl
  Leads 1 _ (scene 11 0 1 0 n rest written) := .combine 5 rfl rfl rfl rfl
  Leads 1 _ (scene 12 0 1 0 n rest written) := .store 2 rfl rfl

/-! ## From the source on -/

variable {input : Input} {output : Output}

theorem ends_of_turns (hinput : input.Works) (houtput : output.mode = .works)
    (hn : Op.readH.typed (RawText.trim line) = .ok n) (htoRead : input.toRead = line :: rest)
    {k : Nat} (hturns : Leads k (scene 12 0 1 0 n rest output.text)
      (scene 22 acc i s n rest output.text)) :
    source.Ends input output (k + 10) none rest (output.text ++ Table.wordLine s.toNat) := by
  refine Source.ends_of_words words_source (by decide) hinput houtput ?_
  rw [htoRead]
  exact ((leads_start hn).trans hturns).ends (ends_printed 2 rfl rfl rfl rfl) (by omega)

/-- How the program ends on a number. -/
structure Sums (input : Input) (output : Output) (n : Nat) (rest : List RawText) : Prop where
  /-- It prints the sum of all numbers up to one that is 32768 at most, modulo 2^16; -/
  added : n ≤ 32768 → source.Ends input output (10 * n + 13) none rest
    (output.text ++ Table.wordLine (n * (n + 1) / 2 % 65536))
  /-- a larger one ends the turns before the first. -/
  negative : 32768 < n → source.Ends input output 13 none rest
    (output.text ++ Table.wordLine 0)

/-- **The program prints the sum of all numbers up to one that is typed**, in any spelling,
if that is 32768 at most. It halts in every case. -/
theorem sums (hinput : input.Works) (houtput : output.mode = .works) {n : Nat}
    (hn : Op.readH.Says line n) (htoRead : input.toRead = line :: rest) :
    Sums input output n rest := by
  obtain ⟨hlt, hn⟩ := hn.typed_ofNat
  constructor
  · intro hsmall
    have hturns : Leads (10 * n + 3)
        (scene 12 0 1 0 (BitVec.ofNat 16 n) rest output.text)
        (scene 22 _ _ (BitVec.ofNat 16 ((n + 1) * n / 2)) _ rest output.text) :=
      leads_turns hsmall (i := 1) Nat.one_pos (Nat.add_comm 1 n)
    have hsum : (BitVec.ofNat 16 ((n + 1) * n / 2)).toNat = n * (n + 1) / 2 % 65536 := by
      rw [BitVec.toNat_ofNat, Nat.mul_comm n]
    rw [← hsum]
    exact ends_of_turns hinput houtput hn htoRead hturns
  · intro hlarge
    have hnegative := (msb_sub_iff hlt (i := 1) (by decide)).mpr (by omega)
    have hturns : Leads 3 (scene 12 0 1 0 (BitVec.ofNat 16 n) rest output.text)
        (scene 22 _ 1 0 (BitVec.ofNat 16 n) rest output.text) := leads_done hnegative
    have hends := ends_of_turns hinput houtput hn htoRead hturns
    exact hends

/-- The numbers up to sixteen, and the first number that is negative. -/
theorem sums_sixteen :
    let input (line : String) : Input := .ofText line
    (∀ line, (input line).Works) ∧ Op.readH.Says "10\n" (16 : Nat) ∧
      Op.readH.Says "8001\n" (32769 : Nat) ∧
      source.Ends (input "10\n") {} 173 none [] "0088\n" ∧
      source.Ends (input "8001\n") {} 13 none [] "0000\n" := by
  have hworks (line : String) := Input.works_ofText line
  have hsixteen : Op.readH.Says "10\n" (16 : Nat) := ⟨16, by decide, rfl⟩
  have hnegative : Op.readH.Says "8001\n" (32769 : Nat) := ⟨32769, by decide, rfl⟩
  exact ⟨hworks, hsixteen, hnegative,
    (sums (hworks _) rfl hsixteen (by decide)).added (by decide),
    (sums (hworks _) rfl hnegative (by decide)).negative (by decide)⟩

end IttyBitty.Sum
