import IttyBitty.Proofs.Machine.Effects
import IttyBitty.Proofs.Stream.Reading

/-!
# Faults leave the machine as it was

A step that ends in a fault has not touched the accumulator, the memory or the
flag. A machine that cannot fetch is the same as before, so that its fault
comes again. Any other fault belongs to an input or output instruction that
has been fetched: the machine stands behind it and can be stepped on.

All of these faults are the machine's own but for one: a line for a character
that holds a surrogate cannot be encoded, and that is no fault of user input
(`step_unencodable`).
-/

namespace IttyBitty

/-! ## Kinds of faults -/

namespace Fault

/-- A line has been read that means no word. -/
def isUserInput : Fault → Bool
  | .wordLength _ | .wordDigits _ | .notOneCharacter _ => true
  | _ => false

/-- A stream has failed or ended. -/
def isStream : Fault → Bool
  | .inputFailed | .inputEnded | .outputFailed | .promptFailed => true
  | _ => false

/-- Nothing could be fetched. -/
def isFetch : Fault → Bool
  | .halted | .outOfBounds _ => true
  | _ => false

end Fault

/-- The prompt of an operation that reads. -/
def Op.promptText : Op → String
  | .readH => Machine.wordPrompt
  | .readC => Machine.characterPrompt
  | _ => ""

namespace Machine

variable {m m' : Machine} {fault : Fault}

/-! ## Why a line is refused -/

/-- The ways in which a typed word is refused. -/
theorem typedWord_refused {line : RawText} (h : typedWord line = .error fault) :
    fault = .wordLength line ∨ fault = .wordDigits line := by
  rw [typedWord] at h
  by_cases hlen : line.length < 1 ∨ 4 < line.length
  · rw [if_pos hlen] at h
    cases h
    exact .inl rfl
  · rw [if_neg hlen] at h
    cases htext : RawText.text? line with
    | none =>
        rw [htext] at h
        cases h
        exact .inr rfl
    | some digits =>
        simp only [htext] at h
        by_cases hall : digits.all Hex.isDigit = true
        · rw [if_pos hall] at h
          cases h
        · rw [if_neg hall] at h
          cases h
          exact .inr rfl

/-- The ways in which a typed character is refused: a line with a surrogate in it is not
encoded, whatever its length. -/
theorem typedCharacter_refused {line : RawText} (h : typedCharacter line = .error fault) :
    fault = .notOneCharacter line ∨
      RawText.text? line = none ∧ fault = .unencodable line := by
  rw [typedCharacter] at h
  cases htext : RawText.text? line with
  | none =>
      rw [htext] at h
      cases h
      exact .inr ⟨rfl, rfl⟩
  | some chars =>
      rw [htext] at h
      match chars with
      | [] => cases h; exact .inl rfl
      | [c] =>
          by_cases hc : c.toNat < 128
          · simp only [if_pos hc] at h
            cases h
          · simp only [if_neg hc] at h
            cases h
            exact .inl rfl
      | _ :: _ :: _ => cases h; exact .inl rfl

/-- Why an operation refuses a line: it means no word, or it is read for a character and
cannot be encoded. -/
def Refuses (op : Op) (line : RawText) (fault : Fault) : Prop :=
  fault.isUserInput = true ∨
    op = .readC ∧ RawText.text? line = none ∧ fault = .unencodable line

theorem refuses_of_typedWord {line : RawText} (h : typedWord line = .error fault) :
    Refuses .readH line fault := by
  rcases typedWord_refused h with rfl | rfl <;> exact .inl rfl

theorem refuses_of_typedCharacter {line : RawText} (h : typedCharacter line = .error fault) :
    Refuses .readC line fault := by
  rcases typedCharacter_refused h with rfl | ⟨htext, rfl⟩
  · exact .inl rfl
  · exact .inr ⟨rfl, htext, rfl⟩

/-! ## Faults of one instruction -/

/-- An operation has taken one line off the input and written nothing but its prompt. -/
structure Takes (m m' : Machine) (op : Op) (line : RawText) : Prop where
  read : m.input.readLine = (.line line, m'.input)
  yields : m.input.Yields line m'.input
  output : m'.output = if m.prompting then m.output.append op.promptText else m.output

/-- What an instruction leaves when it ends in a fault: all but the streams is the
same. Either one line of input has been read and refused and nothing but the
prompt has been written, or a stream has failed, and then nothing has been read
if it was the output. The fault of a refused line is one of user input, unless the
line was read for a character and holds a surrogate. -/
structure Interrupted (m m' : Machine) (op : Op) (fault : Fault) : Prop where
  registers : m'.registers = m.registers
  memory : m'.memory = m.memory
  halted : m'.halted = m.halted
  keeps : m.Keeps m'
  cause :
    (fault.isUserInput = true ∧ op ∈ [.readH, .readC] ∧ ∃ line, m.Takes m' op line) ∨
    (op = .readC ∧ ∃ line, m.Takes m' op line ∧
      RawText.text? (RawText.trim line) = none ∧
      fault = .unencodable (RawText.trim line)) ∨
    (fault.isStream = true ∧ op ∈ [.readH, .readC, .printH, .printC] ∧
      (fault ∈ [.outputFailed, .promptFailed] → m'.input = m.input) ∧
      (m'.output = m.output ∨
        m.prompting = true ∧ m'.output = m.output.append op.promptText))

/-- A prompt that has been shown is all that has been written. -/
theorem Prompted.output {text : String} (h : m.Prompted text m' none) :
    m'.output = if m.prompting then m.output.append text else m.output := by
  cases h with
  | silent hsilent => rw [if_neg (by rw [hsilent]; decide)]
  | shown hprompting => rw [if_pos hprompting]

theorem Prompted.untouched {text : String} {fault : Option Fault}
    (h : m.Prompted text m' fault) :
    m'.registers = m.registers ∧ m'.memory = m.memory ∧ m'.halted = m.halted := by
  cases h <;> exact ⟨rfl, rfl, rfl⟩

theorem mem_transfers_of_mem_reads {op : Op} (h : op ∈ [Op.readH, .readC]) :
    op ∈ [Op.readH, .readC, .printH, .printC] := by
  revert op
  decide

/-- A reading instruction whose prompt has been shown fails with its stream. -/
theorem Prompted.interrupted {op : Op} {rest : Input} (hop : op ∈ [Op.readH, .readC])
    (hstream : fault.isStream = true) (hfault : fault ∉ [.outputFailed, .promptFailed])
    (h : m.Prompted op.promptText m' none)
    (hkeeps : m.Keeps { m' with input := rest }) :
    m.Interrupted { m' with input := rest } op fault := by
  obtain ⟨hregisters, hmemory, hhalted⟩ := h.untouched
  refine ⟨hregisters, hmemory, hhalted, hkeeps,
    .inr (.inr ⟨hstream, mem_transfers_of_mem_reads hop, fun h => absurd h hfault, ?_⟩)⟩
  have houtput := h.output
  by_cases hp : m.prompting = true
  · rw [if_pos hp] at houtput
    exact .inr ⟨hp, houtput⟩
  · rw [if_neg hp] at houtput
    exact .inl houtput

/-- A fault of a reading instruction. -/
theorem ReadInto.interrupted (op : Op) {value? : RawText → Except Fault Word}
    (hop : op ∈ [Op.readH, .readC])
    (hvalue : ∀ {line fault}, value? line = .error fault → Refuses op line fault)
    (h : m.ReadInto op.promptText value? m' (some fault)) :
    m.Interrupted m' op fault := by
  have hkeeps := h.keeps
  cases h with
  | unprompted hprompt =>
      have hop := mem_transfers_of_mem_reads hop
      cases hprompt with
      | unwritten hprompting hwrites =>
          exact ⟨rfl, rfl, rfl, hkeeps, .inr (.inr ⟨rfl, hop, fun _ => rfl, .inl rfl⟩)⟩
      | unflushed hprompting hwrites hflushes =>
          exact ⟨rfl, rfl, rfl, hkeeps,
            .inr (.inr ⟨rfl, hop, fun _ => rfl, .inr ⟨hprompting, rfl⟩⟩)⟩
  | failed hprompt hread => exact hprompt.interrupted hop rfl (by decide) hkeeps
  | ended hprompt hread => exact hprompt.interrupted hop rfl (by decide) hkeeps
  | @refused m' rest line _ hprompt hread hrefused =>
      obtain ⟨hregisters, hmemory, hhalted⟩ := hprompt.untouched
      rw [hprompt.input] at hread
      have htakes : m.Takes { m' with input := rest } op line :=
        ⟨hread, Input.yields_of_readLine hread, hprompt.output⟩
      refine ⟨hregisters, hmemory, hhalted, hkeeps, ?_⟩
      rcases hvalue hrefused with huser | ⟨rfl, htext, rfl⟩
      · exact .inl ⟨huser, hop, _, htakes⟩
      · exact .inr (.inl ⟨rfl, _, htakes, htext, rfl⟩)

/-- A fault of a printing instruction. -/
theorem interrupted_of_write (op : Op) {text : String} (hop : op ∈ [Op.printH, .printC])
    (h : m.write text = (m', some fault)) : m.Interrupted m' op fault := by
  by_cases hw : m.output.writes = true
  · rw [write_of_writes hw] at h
    cases h
  · rw [write_of_not_writes (Bool.eq_false_iff.mpr hw)] at h
    cases h
    refine ⟨rfl, rfl, rfl, .refl m, .inr (.inr ⟨rfl, ?_, fun _ => rfl, .inl rfl⟩)⟩
    revert op
    decide

/-- **Only input and output instructions end in a fault.** -/
theorem interrupted_of_execute {i : Instruction} (h : m.execute i = (m', some fault)) :
    m.Interrupted m' i.op fault := by
  obtain ⟨op, operand, spare⟩ := i
  cases op
  case readH =>
    have hcases := m.readInto_cases wordPrompt typedWord
    rw [show m.readInto wordPrompt typedWord = _ from h] at hcases
    exact hcases.interrupted .readH (by decide) refuses_of_typedWord
  case readC =>
    have hcases := m.readInto_cases characterPrompt typedCharacter
    rw [show m.readInto characterPrompt typedCharacter = _ from h] at hcases
    exact hcases.interrupted .readC (by decide) refuses_of_typedCharacter
  case printH => exact interrupted_of_write .printH (by decide) h
  case printC => exact interrupted_of_write .printC (by decide) h
  -- no other operation has a fault to end in
  all_goals cases h

theorem Interrupted.isFetch {op : Op} (h : m.Interrupted m' op fault) :
    fault.isFetch = false := by
  rcases h.cause with ⟨hkind, -⟩ | ⟨-, _, -, -, rfl⟩ | ⟨hkind, -⟩
  · cases fault <;> first | rfl | cases hkind
  · rfl
  · cases fault <;> first | rfl | cases hkind

/-! ## Faults of a step -/

/-- What a step leaves when it ends in a fault. If nothing could be fetched, the
machine is the same and its fault comes again. Otherwise it is the machine behind
the fetched word, but for the streams, and its next step goes on with the next
word. -/
structure StoppedBy (m m' : Machine) (fault : Fault) : Prop where
  acc : m'.registers.acc = m.registers.acc
  memory : m'.memory = m.memory
  halted : m'.halted = m.halted
  same : fault.isFetch = true → m' = m ∧ m'.step = (m', some fault)
  fetched : fault.isFetch = false → ∃ hpc : m.registers.pc < 4096,
    let w := m.memory.fetch ⟨m.registers.pc, hpc⟩
    m'.registers.ir = w.value ∧ m'.registers.pc = m.registers.pc + 1 ∧
      (m.behind w).Interrupted m' (Instruction.decode w).op fault ∧
      ∀ hnext : m.registers.pc + 1 < 4096,
        let w' := m.memory.fetch ⟨m.registers.pc + 1, hnext⟩
        m'.step = (m'.behind w').execute (Instruction.decode w')

theorem step_halted_iff (m : Machine) : m.step.2 = some .halted ↔ m.halted = true := by
  rcases m.step_cases with ⟨hrun, hstep⟩ | ⟨hrun, -, hstep⟩ | ⟨hrun, hpc, hstep⟩
  · simp [hstep, hrun]
  · simp [hstep, hrun]
  · rw [hrun, hstep]
    refine ⟨fun h => ?_, nofun⟩
    have hinterrupted := interrupted_of_execute (Prod.ext rfl h)
    cases hinterrupted.isFetch

theorem step_outOfBounds_iff (m : Machine) (pc : Nat) :
    m.step.2 = some (.outOfBounds pc) ↔
      m.halted = false ∧ 4096 ≤ m.registers.pc ∧ m.registers.pc = pc := by
  rcases m.step_cases with ⟨hrun, hstep⟩ | ⟨hrun, hpc, hstep⟩ | ⟨hrun, hpc, hstep⟩
  · simp [hstep, hrun]
  · simp [hstep, hrun, hpc]
  · rw [hstep]
    refine ⟨fun h => ?_, fun h => by omega⟩
    have hinterrupted := interrupted_of_execute (Prod.ext rfl h)
    cases hinterrupted.isFetch

/-- **A fault leaves the machine as it was**, in every state of the machine and of
its streams, and says why the step was not completed. -/
theorem step_fault_atomic (m : Machine) :
    (m.step.2 = some .halted ↔ m.halted = true) ∧
      (∀ pc, m.step.2 = some (.outOfBounds pc) ↔
        m.halted = false ∧ 4096 ≤ m.registers.pc ∧ m.registers.pc = pc) ∧
      ∀ m' fault, m.step = (m', some fault) → m.StoppedBy m' fault := by
  refine ⟨m.step_halted_iff, m.step_outOfBounds_iff, ?_⟩
  intro m' fault h
  rcases m.step_cases with ⟨-, hstep⟩ | ⟨-, -, hstep⟩ | ⟨hrun, hpc, hstep⟩
  · rw [hstep] at h
    cases h
    exact ⟨rfl, rfl, rfl, fun _ => ⟨rfl, hstep⟩, nofun⟩
  · rw [hstep] at h
    cases h
    exact ⟨rfl, rfl, rfl, fun _ => ⟨rfl, hstep⟩, nofun⟩
  · rw [hstep] at h
    have hstopped := interrupted_of_execute h
    have hregisters := hstopped.registers
    have hkind := hstopped.isFetch
    refine ⟨by rw [hregisters]; rfl, hstopped.memory, hstopped.halted,
      fun hfetch => absurd hfetch (by rw [hkind]; decide), fun _ => ⟨hpc, ?_⟩⟩
    refine ⟨by rw [hregisters]; rfl, by rw [hregisters]; rfl, hstopped, ?_⟩
    intro hnext
    -- the counter is behind the word, and the memory is the one it came from
    have hpc' : m'.registers.pc = m.registers.pc + 1 := by rw [hregisters]; rfl
    have hinside : m'.registers.pc < 4096 := by rw [hpc']; exact hnext
    have hplace : (⟨m'.registers.pc, hinside⟩ : Address) = ⟨m.registers.pc + 1, hnext⟩ :=
      Fin.ext hpc'
    have hmemory : m'.memory = m.memory := hstopped.memory
    rw [step_of_running (hstopped.halted.trans hrun) hinside, hplace, hmemory]

/-- A word that is no word is refused, with its line gone from the input. -/
theorem step_fault_atomic_refused :
    let m : Machine :=
      { memory := Memory.ofWords [0x1000] (by decide), input := .ofText "12z4\nffff\n" }
    ∃ m', m.step = (m', some (.wordDigits "12z4")) ∧ m.StoppedBy m' (.wordDigits "12z4") :=
  ⟨_, by rfl, (step_fault_atomic _).2.2 _ _ (by rfl)⟩

/-- A line that is a surrogate ends the reading of a character in a fault of another kind. -/
theorem step_unencodable :
    let m : Machine :=
      { memory := Memory.ofWords [0x1400] (by decide)
        input := .ofText [.surrogate 0, .char '\n'] }
    ∃ m' fault, m.step = (m', some fault) ∧ fault.isUserInput = false ∧
      fault.isStream = false ∧ fault.isFetch = false :=
  ⟨_, .unencodable [.surrogate 0], by rfl, rfl, rfl, rfl⟩

end Machine

end IttyBitty
