import IttyBitty.Proofs.Machine.Effects
import IttyBitty.Proofs.Text.Hexadecimal

/-!
# A step stays inside the machine

Registers that hold words and a program counter that is at most one behind the
last address stay so, whatever word is executed. The places that a step looks
at or changes are the place of the instruction and that of its operand; both
are addresses, and a word anywhere else is neither read nor written.
-/

namespace IttyBitty

/-! ## Registers in range -/

namespace Registers

/-- Two registers hold words, and the third an address or the number behind the
last one. -/
structure InRange (r : Registers) : Prop where
  acc : 0 ≤ r.acc ∧ r.acc ≤ 65535
  ir : 0 ≤ r.ir ∧ r.ir ≤ 65535
  pc : r.pc ≤ 4096

theorem InRange.clear : InRange {} := ⟨by decide, by decide, by decide⟩

end Registers

theorem Word.value_range (w : Word) : 0 ≤ w.value ∧ w.value ≤ 65535 :=
  ⟨w.value_nonneg, by have := w.value_lt; omega⟩

namespace Machine

variable {m m' : Machine}

theorem inRange_setAcc (h : m.registers.InRange) (w : Word) :
    (m.setAcc w.value).registers.InRange :=
  { h with acc := w.value_range }

theorem inRange_setPc (h : m.registers.InRange) (a : Address) :
    (m.setPc a.val).registers.InRange :=
  { h with pc := Nat.le_of_lt a.isLt }

theorem inRange_behind (h : m.registers.InRange) (hpc : m.registers.pc < 4096) (w : Word) :
    (m.behind w).registers.InRange :=
  ⟨h.acc, w.value_range, hpc⟩

theorem inRange_write (h : m.registers.InRange) (text : String) :
    (m.write text).1.registers.InRange := by
  rw [write]
  split <;> exact h

theorem Prompted.registers {text : String} {fault : Option Fault}
    (h : m.Prompted text m' fault) : m'.registers = m.registers := by
  cases h <;> rfl

theorem ReadInto.inRange {text : String} {value? : RawText → Except Fault Word}
    {fault : Option Fault} (h : m.ReadInto text value? m' fault)
    (hm : m.registers.InRange) : m'.registers.InRange := by
  cases h with
  | unprompted hprompt => rwa [hprompt.registers]
  | failed hprompt => exact hprompt.registers ▸ hm
  | ended hprompt => exact hprompt.registers ▸ hm
  | refused hprompt => exact hprompt.registers ▸ hm
  | accepted hprompt => exact inRange_setAcc (by exact hprompt.registers ▸ hm) _

/-- **Every instruction keeps the registers in range.** -/
theorem inRange_execute (h : m.registers.InRange) (i : Instruction) :
    (m.execute i).1.registers.InRange := by
  obtain ⟨op, operand, spare⟩ := i
  cases op
  case halt => exact h
  case nop => exact h
  case store => exact h
  case readH => exact (m.readInto_cases _ _).inRange h
  case readC => exact (m.readInto_cases _ _).inRange h
  case printH => exact inRange_write h _
  case printC => exact inRange_write h _
  case jmp => exact inRange_setPc h _
  case jmpe =>
    show (if _ then m.setPc _ else m).registers.InRange
    split
    · exact inRange_setPc h _
    · exact h
  case jmpl =>
    show (if _ then m.setPc _ else m).registers.InRange
    split
    · exact inRange_setPc h _
    · exact h
  case brl => exact inRange_setPc (inRange_setAcc h _) _
  -- what is left puts a word into the accumulator
  all_goals exact inRange_setAcc h _

theorem inRange_step (h : m.registers.InRange) : m.step.1.registers.InRange := by
  rcases m.step_cases with ⟨-, hstep⟩ | ⟨-, -, hstep⟩ | ⟨-, hpc, hstep⟩ <;> rw [hstep]
  · exact h
  · exact h
  · exact inRange_execute (inRange_behind h hpc _) _

end Machine

/-! ## The places that a step touches -/

/-- The place in memory that an instruction reads or writes; the address of a
jump is only gone to. -/
def Instruction.accessed? (i : Instruction) : Option Int :=
  if i.op.isJump then none else i.address?

/-- **An instruction that has been decoded names a place inside the memory.** -/
theorem Instruction.accessed?_decode {w : Word} {a : Int}
    (h : (decode w).accessed? = some a) : 0 ≤ a ∧ a < 4096 := by
  rw [accessed?] at h
  split at h
  · cases h
  · rw [address?] at h
    split at h
    · rename_i hmode
      obtain rfl : (decode w).operand = a := by simpa using h
      have hop : (decode w).operand = (decode w).op.mode.operand w.value := rfl
      rw [hop, hmode]
      show 0 ≤ w.value % 4096 ∧ w.value % 4096 < 4096
      omega
    · cases h

namespace Memory

theorem store_comm (memory : Memory) {a b : Address} (h : a ≠ b) (v w : Word) :
    (memory.store a v).store b w = (memory.store b w).store a v := by
  simp only [store, Memory.mk.injEq, and_true]
  exact Vector.set_comm v w (by simpa [Fin.ext_iff] using h)

end Memory

namespace Machine

variable {m : Machine}

/-- The machine with another word at an address. -/
def poke (a : Address) (w : Word) (m : Machine) : Machine :=
  { m with memory := m.memory.store a w }

/-- The places that the next step reads or writes: that of the instruction, and
that of its operand if it has one. -/
def touched (m : Machine) : List Int :=
  match m.current with
  | .error _ => []
  | .ok i => if m.halted then [] else m.registers.pc :: i.accessed?.toList

/-- **Every fetch and every access of a step is inside the memory.** -/
theorem mem_touched {a : Int} (h : a ∈ m.touched) : 0 ≤ a ∧ a < 4096 := by
  rw [touched] at h
  by_cases hpc : m.registers.pc < 4096
  · simp only [current, dif_pos hpc] at h
    split at h
    · cases h
    · rcases List.mem_cons.mp h with rfl | h
      · omega
      · exact Instruction.accessed?_decode (by simpa using h)
  · simp only [current, dif_neg hpc] at h
    cases h

/-! ## A word anywhere else -/

variable (a : Address) (w : Word)

theorem write_poke (m : Machine) (text : String) :
    (m.poke a w).write text = (m.write text).map (poke a w) id := by
  rw [write, write]
  show (if m.output.writes then _ else _) = _
  split <;> rfl

theorem prompt_poke (m : Machine) (text : String) :
    (m.poke a w).prompt text = (m.prompt text).map (poke a w) id := by
  rw [prompt, prompt, write_poke]
  show (if m.prompting then _ else _) = _
  split
  · rcases m.write text with ⟨m', _ | fault⟩
    · show (if m'.output.flushes then _ else _) = Prod.map _ _ (if m'.output.flushes then _ else _)
      split <;> rfl
    · rfl
  · rfl

theorem readInto_poke (m : Machine) (text : String) (value? : RawText → Except Fault Word) :
    (m.poke a w).readInto text value? = (m.readInto text value?).map (poke a w) id := by
  rw [readInto, readInto, prompt_poke]
  rcases m.prompt text with ⟨m', _ | fault⟩
  · have hinput : (m'.poke a w).input = m'.input := rfl
    simp only [Prod.map, id, hinput]
    rcases m'.input.readLine with ⟨_ | _ | _, rest⟩
    · rename_i line
      dsimp only
      cases value? (RawText.trim line) <;> rfl
    · rfl
    · rfl
  · rfl

/-- The word at another address is not fetched. -/
theorem fetch_poke {a b : Address} (h : a ≠ b) (w : Word) (m : Machine) :
    (m.poke a w).memory.fetch b = m.memory.fetch b := by
  show (m.memory.store a w).fetch b = _
  rw [Memory.fetch_store, if_neg h]

variable {a}

/-- An instruction does not look at a word that is not its operand, and leaves
it there. -/
theorem execute_poke {i : Instruction} (h : ∀ b, i.accessed? = some b → Address.ofInt b ≠ a) :
    (m.poke a w).execute i = (m.execute i).map (poke a w) id := by
  obtain ⟨op, operand, spare⟩ := i
  -- an operation with an operand that is no jump has it at another place
  have hother : op.isJump = false → op.mode = .address → a ≠ Address.ofInt operand := by
    intro hjump hmode
    refine (h operand ?_).symm
    simp only [Instruction.accessed?, Instruction.address?, hjump, hmode]
    rfl
  have hfetch (hne : a ≠ Address.ofInt operand) (f : Word → Word) :
      ((m.poke a w).setAcc (f ((m.poke a w).memory.fetch (Address.ofInt operand))).value,
        (none : Option Fault)) =
      ((m.setAcc (f (m.memory.fetch (Address.ofInt operand))).value).poke a w, none) := by
    rw [fetch_poke hne]
    rfl
  cases op
  case readH => exact readInto_poke a w m _ _
  case readC => exact readInto_poke a w m _ _
  case printH => exact write_poke a w m _
  case printC => exact write_poke a w m _
  case load => exact hfetch (hother rfl rfl) id
  case add => exact hfetch (hother rfl rfl) fun v => Alu.add m.registers.acc v.value
  case sub => exact hfetch (hother rfl rfl) fun v => Alu.sub m.registers.acc v.value
  case and => exact hfetch (hother rfl rfl) fun v => Alu.and m.registers.acc v.value
  case or => exact hfetch (hother rfl rfl) fun v => Alu.or m.registers.acc v.value
  case xor => exact hfetch (hother rfl rfl) fun v => Alu.xor m.registers.acc v.value
  case store =>
    have hcomm := m.memory.store_comm (hother rfl rfl) w (Word.ofInt m.registers.acc)
    show ({ m with memory := _ }, none) = ({ m with memory := _ }, none)
    rw [← hcomm]
    rfl
  case jmpe =>
    show ((if m.registers.acc = 0 then _ else _), none) =
      ((if m.registers.acc = 0 then _ else _ : Machine).poke a w, none)
    split <;> rfl
  case jmpl =>
    show ((if Alu.isNegative m.registers.acc then _ else _), none) =
      ((if Alu.isNegative m.registers.acc then _ else _ : Machine).poke a w, none)
    split <;> rfl
  all_goals rfl

/-- **A step has nothing to do with a word at a place that it does not touch**:
another word there stays there and changes nothing else. -/
theorem step_poke (h : (a.val : Int) ∉ m.touched) :
    (m.poke a w).step = m.step.map (poke a w) id := by
  rcases m.step_cases with ⟨hhalted, hstep⟩ | ⟨hrun, hpc, hstep⟩ | ⟨hrun, hpc, hstep⟩
  · rw [hstep, step, if_pos (by exact hhalted)]
    rfl
  · rw [hstep, step, if_neg (by rw [poke, hrun]; decide), dif_neg (by exact Nat.not_lt.mpr hpc)]
    rfl
  · have hcurrent : m.current
        = .ok (Instruction.decode (m.memory.fetch ⟨m.registers.pc, hpc⟩)) := by
      rw [current, dif_pos hpc]
    simp only [touched, hcurrent, hrun, Bool.false_eq_true, if_false, List.mem_cons,
      not_or, Option.mem_toList] at h
    obtain ⟨hplace, haccessed⟩ := h
    have hne : a ≠ ⟨m.registers.pc, hpc⟩ := by
      rintro rfl
      exact hplace rfl
    rw [hstep, step_of_running (by exact hrun) (by exact hpc)]
    show (((m.poke a w).behind ((m.poke a w).memory.fetch ⟨m.registers.pc, hpc⟩)).execute
      (Instruction.decode ((m.poke a w).memory.fetch ⟨m.registers.pc, hpc⟩))) = _
    rw [fetch_poke hne]
    refine execute_poke (m := m.behind _) w fun b hb heq => ?_
    -- the operand is an address, so it is the place that its number names
    obtain ⟨hnonneg, hlt⟩ := Instruction.accessed?_decode hb
    have hval : (a.val : Int) = b := by
      rw [← heq]
      simp only [Address.ofInt]
      omega
    exact haccessed (hval ▸ hb)

/-! ## Printing a word -/

/-- **A printed word is four digits**, and they say what the accumulator holds. -/
theorem printedWord_digits {n : Int} (h : 0 ≤ n ∧ n ≤ 65535) :
    ∃ digits : Text, printedWord n = String.ofList (digits ++ ['\n']) ∧ digits.length = 4 ∧
      (∀ c ∈ digits, Hex.isDigit c = true) ∧ (Hex.number digits : Int) = n := by
  have hlt : n.natAbs < 65536 := by omega
  refine ⟨Hex.fourFigures n.natAbs, ?_, rfl, Hex.isDigit_of_mem_fourFigures hlt, ?_⟩
  · rw [printedWord, Hex.lowerInt, if_neg (by omega), Hex.lower_four hlt]
  · rw [Hex.number_fourFigures hlt]
    omega

theorem execute_printH {i : Instruction} (h : i.op = .printH) :
    m.execute i = m.write (printedWord m.registers.acc) := by
  rw [execute]
  simp only [h]

end Machine

end IttyBitty
