import IttyBitty.Proofs.Machine.FaultAtomicity
import IttyBitty.Proofs.Machine.Steps

/-!
# Machines that compute the same

Two machines may differ in what they have written, in their switches and in their
traces and go on alike all the same: no step looks at any of these but at the
prompt switch, and that one matters only to an output that fails.
-/

namespace IttyBitty.Machine

/-- The machines differ at most in what they have written, in their switches and in
their traces. -/
structure Twins (m m' : Machine) : Prop where
  registers : m'.registers = m.registers
  memory : m'.memory = m.memory
  halted : m'.halted = m.halted
  input : m'.input = m.input
  mode : m'.output.mode = m.output.mode

/-- A prompt cannot make a difference: both machines show prompts, or none does, or
the outputs work. -/
def PromptsAlike (m m' : Machine) : Prop :=
  m'.prompting = m.prompting ∨ m.output.mode = .works

variable {m m' : Machine}

theorem Twins.refl (m : Machine) : m.Twins m := ⟨rfl, rfl, rfl, rfl, rfl⟩

theorem Twins.trans {m'' : Machine} (h : m.Twins m') (h' : m'.Twins m'') : m.Twins m'' :=
  ⟨h'.registers.trans h.registers, h'.memory.trans h.memory, h'.halted.trans h.halted,
    h'.input.trans h.input, h'.mode.trans h.mode⟩

theorem Twins.writes (h : m.Twins m') : m'.output.writes = m.output.writes := by
  simp only [Output.writes, h.mode]

theorem Twins.flushes (h : m.Twins m') : m'.output.flushes = m.output.flushes := by
  simp only [Output.flushes, h.mode]

theorem Twins.setAcc (h : m.Twins m') (value : Int) : (m.setAcc value).Twins (m'.setAcc value) :=
  { h with registers := by simp only [Machine.setAcc, h.registers] }

theorem Twins.setPc (h : m.Twins m') (pc : Nat) : (m.setPc pc).Twins (m'.setPc pc) :=
  { h with registers := by simp only [Machine.setPc, h.registers] }

theorem Twins.setInput (h : m.Twins m') (input : Input) :
    Twins { m with input } { m' with input } :=
  { h with input := rfl }

/-! ## Writing and reading -/

theorem twins_write (h : m.Twins m') (text text' : String) :
    (m.write text).1.Twins (m'.write text').1 ∧ (m'.write text').2 = (m.write text).2 := by
  rw [write, write, h.writes]
  split
  · exact ⟨{ h with }, rfl⟩
  · exact ⟨h, rfl⟩

/-- The fault of a prompt depends on the switch and the output alone. -/
theorem prompt_fault (m : Machine) (text : String) :
    (m.prompt text).2 =
      if m.prompting = true ∧ m.output.writes = false then some .outputFailed
      else if m.prompting = true ∧ m.output.flushes = false then some .promptFailed
      else none := by
  have hprompted := m.prompted text
  generalize (m.prompt text).1 = m', (m.prompt text).2 = fault at hprompted
  cases hprompted <;> simp_all

theorem twins_prompted (m : Machine) (text : String) : m.Twins (m.prompt text).1 := by
  have hprompted := m.prompted text
  generalize (m.prompt text).1 = m', (m.prompt text).2 = fault at hprompted
  cases hprompted <;> exact ⟨rfl, rfl, rfl, rfl, rfl⟩

theorem twins_prompt (h : m.Twins m') (hprompts : m.PromptsAlike m') (text : String) :
    (m.prompt text).1.Twins (m'.prompt text).1 ∧
      (m'.prompt text).2 = (m.prompt text).2 := by
  have hleft := m.twins_prompted text
  have hright := m'.twins_prompted text
  constructor
  · exact ⟨by rw [hright.registers, hleft.registers, h.registers],
      by rw [hright.memory, hleft.memory, h.memory],
      by rw [hright.halted, hleft.halted, h.halted],
      by rw [hright.input, hleft.input, h.input],
      by rw [hright.mode, hleft.mode, h.mode]⟩
  · rw [prompt_fault, prompt_fault, h.writes, h.flushes]
    rcases hprompts with hprompting | hworks
    · rw [hprompting]
    · simp [Output.writes, Output.flushes, hworks]

theorem twins_readInto (h : m.Twins m') (hprompts : m.PromptsAlike m') (text : String)
    (value? : RawText → Except Fault Word) :
    (m.readInto text value?).1.Twins (m'.readInto text value?).1 ∧
      (m'.readInto text value?).2 = (m.readInto text value?).2 := by
  obtain ⟨htwins, hfault⟩ := twins_prompt h hprompts text
  rw [readInto, readInto]
  rcases hm : m.prompt text with ⟨m₁, fault⟩
  rcases hm' : m'.prompt text with ⟨m₁', fault'⟩
  rw [hm, hm'] at htwins hfault
  obtain rfl : fault' = fault := hfault
  cases fault' with
  | some fault => exact ⟨htwins, rfl⟩
  | none =>
      have hinput : m₁'.input = m₁.input := htwins.input
      simp only [hinput]
      rcases m₁.input.readLine with ⟨_ | _ | _, rest⟩
      · rename_i line
        dsimp only
        cases value? (RawText.trim line) with
        | error fault => exact ⟨htwins.setInput rest, rfl⟩
        | ok w => exact ⟨(htwins.setInput rest).setAcc w.value, rfl⟩
      · exact ⟨htwins.setInput rest, rfl⟩
      · exact ⟨htwins.setInput rest, rfl⟩

/-! ## Steps -/

/-- **Twins execute an instruction alike.** -/
theorem twins_execute (h : m.Twins m') (hprompts : m.PromptsAlike m') (i : Instruction) :
    (m.execute i).1.Twins (m'.execute i).1 ∧ (m'.execute i).2 = (m.execute i).2 := by
  obtain ⟨op, operand, spare⟩ := i
  cases op
  case readH => exact twins_readInto h hprompts _ _
  case readC => exact twins_readInto h hprompts _ _
  case printH => exact twins_write h _ _
  case printC => exact twins_write h _ _
  case halt => exact ⟨{ h with halted := rfl }, rfl⟩
  case nop => exact ⟨h, rfl⟩
  case jmp => exact ⟨h.setPc _, rfl⟩
  case jmpe =>
    simp only [execute, h.registers, and_true]
    split
    · exact h.setPc _
    · exact h
  case jmpl =>
    simp only [execute, h.registers, and_true]
    split
    · exact h.setPc _
    · exact h
  case brl =>
    simp only [execute, h.registers, and_true]
    exact (h.setAcc _).setPc _
  case store =>
    simp only [execute, h.registers, h.memory, and_true]
    exact ⟨rfl, rfl, h.halted, h.input, h.mode⟩
  -- what is left puts a word into the accumulator
  all_goals
    simp only [execute, h.registers, h.memory, and_true]
    exact h.setAcc _

/-- **Twins step alike.** -/
theorem twins_step (h : m.Twins m') (hprompts : m.PromptsAlike m') :
    m.step.1.Twins m'.step.1 ∧ m'.step.2 = m.step.2 := by
  rcases m.step_cases with ⟨hhalted, hstep⟩ | ⟨hrun, hpc, hstep⟩ | ⟨hrun, hpc, hstep⟩
  · rw [hstep, step, if_pos (h.halted.trans hhalted)]
    exact ⟨h, rfl⟩
  · rw [hstep, step, if_neg (by simp [h.halted, hrun]),
      dif_neg (by simpa [h.registers] using hpc), h.registers]
    exact ⟨h, rfl⟩
  · have hpc' : m'.registers.pc < 4096 := by rw [h.registers]; exact hpc
    rw [hstep, step_of_running (h.halted.trans hrun) hpc']
    simp only [h.registers, h.memory]
    have hbehind (w : Word) : (m.behind w).Twins (m'.behind w) :=
      { h with registers := by simp only [behind, h.registers] }
    exact twins_execute (hbehind _) (by exact hprompts) _

theorem prompting_step (m : Machine) : m.step.1.prompting = m.prompting := by
  obtain ⟨_, hkeeps⟩ := m.keeps_step
  exact hkeeps.prompting

theorem mode_step (m : Machine) : m.step.1.output.mode = m.output.mode := by
  obtain ⟨_, hkeeps⟩ := m.keeps_step
  exact hkeeps.mode

theorem PromptsAlike.step (h : m.PromptsAlike m') : m.step.1.PromptsAlike m'.step.1 := by
  rw [PromptsAlike, prompting_step, prompting_step, mode_step]
  exact h

theorem PromptsAlike.steps (h : m.PromptsAlike m') (n : Nat) :
    (m.steps n).PromptsAlike (m'.steps n) := by
  induction n with
  | zero => exact h
  | succ n ih => exact ih.step

/-- **Twins stay twins**, whatever number of steps they take. -/
theorem twins_steps (h : m.Twins m') (hprompts : m.PromptsAlike m') (n : Nat) :
    (m.steps n).Twins (m'.steps n) := by
  induction n with
  | zero => exact h
  | succ n ih => exact (twins_step ih (hprompts.steps n)).1

theorem fault_steps (h : m.Twins m') (hprompts : m.PromptsAlike m') (n : Nat) :
    (m'.steps n).step.2 = (m.steps n).step.2 :=
  (twins_step (twins_steps h hprompts n) (hprompts.steps n)).2

/-- Twins are stopped by the same step. -/
theorem twins_stops_iff (h : m.Twins m') (hprompts : m.PromptsAlike m') (k : Nat) :
    m'.Stops k ↔ m.Stops k := by
  rw [Stops, Stops, fault_steps h hprompts, (twins_steps h hprompts (k + 1)).halted]

theorem twins_firstStop_iff (h : m.Twins m') (hprompts : m.PromptsAlike m') (k : Nat) :
    m'.FirstStop k ↔ m.FirstStop k := by
  have hstops := twins_stops_iff h hprompts
  constructor
  · intro hfirst
    exact ⟨(hstops k).mp hfirst.stops, fun j hj => mt (hstops j).mpr (hfirst.before j hj)⟩
  · intro hfirst
    exact ⟨(hstops k).mpr hfirst.stops, fun j hj => mt (hstops j).mp (hfirst.before j hj)⟩

end IttyBitty.Machine
