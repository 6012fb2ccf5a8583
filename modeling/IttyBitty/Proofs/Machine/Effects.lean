import IttyBitty.Machine.Step

/-!
# What an instruction can do

The ways in which a prompt and a reading instruction can turn out, each with
the machine that it leaves, and the parts of a machine that no instruction
touches. Everything that is said of all steps goes through these cases and
does not open the instructions again.
-/

namespace IttyBitty.Machine

/-! ## Prompts and lines -/

/-- How showing a prompt turns out: the machine it leaves and the fault. -/
inductive Prompted (m : Machine) (text : String) : Machine → Option Fault → Prop
  | silent (hsilent : m.prompting = false) : Prompted m text m none
  | shown (hprompting : m.prompting = true) (hwrites : m.output.writes = true)
      (hflushes : m.output.flushes = true) :
      Prompted m text { m with output := m.output.append text } none
  | unwritten (hprompting : m.prompting = true) (hwrites : m.output.writes = false) :
      Prompted m text m (some .outputFailed)
  | unflushed (hprompting : m.prompting = true) (hwrites : m.output.writes = true)
      (hflushes : m.output.flushes = false) :
      Prompted m text { m with output := m.output.append text } (some .promptFailed)

theorem write_of_writes {m : Machine} (h : m.output.writes = true) (text : String) :
    m.write text = ({ m with output := m.output.append text }, none) := by
  rw [write, if_pos h]

theorem write_of_not_writes {m : Machine} (h : m.output.writes = false) (text : String) :
    m.write text = (m, some .outputFailed) := by
  rw [write, if_neg (by rw [h]; decide)]

theorem prompted (m : Machine) (text : String) :
    m.Prompted text (m.prompt text).1 (m.prompt text).2 := by
  rw [prompt]
  by_cases hp : m.prompting = true
  · rw [if_pos hp]
    by_cases hw : m.output.writes = true
    · have hflush : ({ m with output := m.output.append text } : Machine).output.flushes
          = m.output.flushes := rfl
      simp only [write_of_writes hw, hflush]
      by_cases hf : m.output.flushes = true
      · rw [if_pos hf]
        exact .shown hp hw hf
      · rw [if_neg hf]
        exact .unflushed hp hw (Bool.eq_false_iff.mpr hf)
    · have hw := Bool.eq_false_iff.mpr hw
      rw [write_of_not_writes hw]
      exact .unwritten hp hw
  · rw [if_neg hp]
    exact .silent (Bool.eq_false_iff.mpr hp)

/-- Showing a prompt reads nothing. -/
theorem Prompted.input {m m' : Machine} {text : String} {fault : Option Fault}
    (h : m.Prompted text m' fault) : m'.input = m.input := by
  cases h <;> rfl

/-- How reading a line into the accumulator turns out. `m'` is the machine behind
the prompt. -/
inductive ReadInto (m : Machine) (text : String) (value? : RawText → Except Fault Word) :
    Machine → Option Fault → Prop
  | unprompted {m' : Machine} {fault : Fault} (hprompt : m.Prompted text m' (some fault)) :
      ReadInto m text value? m' (some fault)
  | failed {m' : Machine} {rest : Input} (hprompt : m.Prompted text m' none)
      (hread : m'.input.readLine = (.failed, rest)) :
      ReadInto m text value? { m' with input := rest } (some .inputFailed)
  | ended {m' : Machine} {rest : Input} (hprompt : m.Prompted text m' none)
      (hread : m'.input.readLine = (.ended, rest)) :
      ReadInto m text value? { m' with input := rest } (some .inputEnded)
  | refused {m' : Machine} {rest : Input} {line : RawText} {fault : Fault}
      (hprompt : m.Prompted text m' none) (hread : m'.input.readLine = (.line line, rest))
      (hvalue : value? (RawText.trim line) = .error fault) :
      ReadInto m text value? { m' with input := rest } (some fault)
  | accepted {m' : Machine} {rest : Input} {line : RawText} {w : Word}
      (hprompt : m.Prompted text m' none) (hread : m'.input.readLine = (.line line, rest))
      (hvalue : value? (RawText.trim line) = .ok w) :
      ReadInto m text value? (setAcc { m' with input := rest } w.value) none

theorem readInto_cases (m : Machine) (text : String) (value? : RawText → Except Fault Word) :
    m.ReadInto text value? (m.readInto text value?).1 (m.readInto text value?).2 := by
  have hprompted := m.prompted text
  rw [readInto]
  rcases hp : m.prompt text with ⟨m', _ | fault⟩
  · rw [hp] at hprompted
    rcases hread : m'.input.readLine with ⟨_ | _ | _, rest⟩
    · rename_i line
      simp only [hread]
      cases hvalue : value? (RawText.trim line) with
      | error fault => exact .refused hprompted hread hvalue
      | ok w => exact .accepted hprompted hread hvalue
    · simp only [hread]
      exact .ended hprompted hread
    · simp only [hread]
      exact .failed hprompted hread
  · rw [hp] at hprompted
    exact .unprompted hprompted

/-! ## What no instruction changes -/

/-- The length of the program, the switches, the trace and the condition of the
streams are the same on both machines. -/
structure Keeps (m m' : Machine) : Prop where
  length : m'.memory.length = m.memory.length
  prompting : m'.prompting = m.prompting
  tracing : m'.tracing = m.tracing
  trace : m'.trace = m.trace
  mode : m'.output.mode = m.output.mode
  broken : m'.input.broken = m.input.broken

theorem Keeps.refl (m : Machine) : m.Keeps m := ⟨rfl, rfl, rfl, rfl, rfl, rfl⟩

theorem Prompted.keeps {m m' : Machine} {text : String} {fault : Option Fault}
    (h : m.Prompted text m' fault) : m.Keeps m' := by
  cases h <;> exact ⟨rfl, rfl, rfl, rfl, rfl, rfl⟩

theorem ReadInto.keeps {m m' : Machine} {text : String}
    {value? : RawText → Except Fault Word} {fault : Option Fault}
    (h : m.ReadInto text value? m' fault) : m.Keeps m' := by
  have hrest : ∀ {m' : Machine} {reading : Reading} {rest : Input},
      m'.input.readLine = (reading, rest) → rest.broken = m'.input.broken := by
    intro m' reading rest hread
    have hbroken : m'.input.readLine.2.broken = m'.input.broken := rfl
    rwa [hread] at hbroken
  cases h with
  | unprompted hprompt => exact hprompt.keeps
  | failed hprompt hread =>
      exact { hprompt.keeps with broken := (hrest hread).trans hprompt.keeps.broken }
  | ended hprompt hread =>
      exact { hprompt.keeps with broken := (hrest hread).trans hprompt.keeps.broken }
  | refused hprompt hread hvalue =>
      exact { hprompt.keeps with broken := (hrest hread).trans hprompt.keeps.broken }
  | accepted hprompt hread hvalue =>
      exact { hprompt.keeps with broken := (hrest hread).trans hprompt.keeps.broken }

theorem keeps_write (m : Machine) (text : String) : m.Keeps (m.write text).1 := by
  rw [write]
  split <;> exact ⟨rfl, rfl, rfl, rfl, rfl, rfl⟩

/-- No instruction changes the setting it runs in. -/
theorem keeps_execute (m : Machine) (i : Instruction) : m.Keeps (m.execute i).1 := by
  obtain ⟨op, operand, spare⟩ := i
  cases op
  case readH => exact (m.readInto_cases _ _).keeps
  case readC => exact (m.readInto_cases _ _).keeps
  case printH => exact m.keeps_write _
  case printC => exact m.keeps_write _
  -- a jump may not be taken; then nothing changes at all
  case jmpe =>
    show m.Keeps (if _ then _ else m)
    split <;> exact ⟨rfl, rfl, rfl, rfl, rfl, rfl⟩
  case jmpl =>
    show m.Keeps (if _ then _ else m)
    split <;> exact ⟨rfl, rfl, rfl, rfl, rfl, rfl⟩
  all_goals exact ⟨rfl, rfl, rfl, rfl, rfl, rfl⟩

/-! ## Fetching -/

/-- The entry that a trace gets when a word has been fetched. -/
def entry (m : Machine) (w : Word) : TraceEntry :=
  ⟨m.registers.pc, Instruction.decode w,
    { acc := m.registers.acc, ir := w.value, pc := m.registers.pc + 1 }⟩

/-- The machine once it has fetched a word: two registers are new, and the trace
has noted it if it is kept. -/
def behind (m : Machine) (w : Word) : Machine :=
  { m with
    registers := { acc := m.registers.acc, ir := w.value, pc := m.registers.pc + 1 }
    trace := if m.tracing then m.trace.push (m.entry w) else m.trace }

theorem fetched_eq_behind (m : Machine) (w : Word) :
    m.fetched m.registers.pc w = m.behind w := by
  rw [behind]
  unfold fetched
  by_cases ht : m.tracing = true
  · rw [if_pos ht, if_pos ht]
    rfl
  · rw [if_neg ht, if_neg ht]

/-- A step of a machine that runs inside its memory. -/
theorem step_of_running {m : Machine} (hrun : m.halted = false)
    (hpc : m.registers.pc < 4096) :
    m.step = (m.behind (m.memory.fetch ⟨m.registers.pc, hpc⟩)).execute
      (Instruction.decode (m.memory.fetch ⟨m.registers.pc, hpc⟩)) := by
  rw [step, if_neg (by rw [hrun]; decide), dif_pos hpc]
  simp only [fetched_eq_behind]

/-- The three ways a step can go. -/
theorem step_cases (m : Machine) :
    (m.halted = true ∧ m.step = (m, some .halted)) ∨
    (m.halted = false ∧ 4096 ≤ m.registers.pc ∧
      m.step = (m, some (.outOfBounds m.registers.pc))) ∨
    (m.halted = false ∧ ∃ hpc : m.registers.pc < 4096,
      m.step = (m.behind (m.memory.fetch ⟨m.registers.pc, hpc⟩)).execute
        (Instruction.decode (m.memory.fetch ⟨m.registers.pc, hpc⟩))) := by
  by_cases hrun : m.halted = true
  · refine .inl ⟨hrun, ?_⟩
    rw [step, if_pos hrun]
  · have hrun := Bool.eq_false_iff.mpr hrun
    by_cases hpc : m.registers.pc < 4096
    · exact .inr (.inr ⟨hrun, hpc, step_of_running hrun hpc⟩)
    · refine .inr (.inl ⟨hrun, by omega, ?_⟩)
      rw [step, if_neg (by rw [hrun]; decide), dif_neg hpc]

/-- No step changes the setting it runs in, but for the trace. -/
theorem keeps_step (m : Machine) : ∃ trace, Keeps { m with trace } m.step.1 := by
  rcases m.step_cases with ⟨-, hstep⟩ | ⟨-, -, hstep⟩ | ⟨-, hpc, hstep⟩ <;> rw [hstep]
  · exact ⟨m.trace, .refl m⟩
  · exact ⟨m.trace, .refl m⟩
  · obtain ⟨hlength, hprompting, htracing, htrace, hmode, hbroken⟩ := keeps_execute
      (m.behind (m.memory.fetch ⟨m.registers.pc, hpc⟩)) (Instruction.decode _)
    exact ⟨_, hlength, hprompting, htracing, htrace, hmode, hbroken⟩

end IttyBitty.Machine
