import IttyBitty.Proofs.Machine.Twins

/-!
# The switches only show

Two machines that differ in their switches compute the same, whatever is called on
them. What they write differs in the prompts alone, each of which stands in front
of what its instruction does, and the trace of one that is traced is a line for
every fetch.
-/

namespace IttyBitty

/-- The line that an operation writes of the accumulator. -/
def Op.line (acc : Int) : Op → String
  | .printH => Machine.printedWord acc
  | .printC => Machine.printedCharacter acc
  | _ => ""

namespace Machine

variable {m m' : Machine}

/-! ## The next step -/

/-- What a trace notes of the next step: nothing if it cannot fetch. -/
def nextEntry (m : Machine) : Option TraceEntry :=
  if m.halted then none
  else if inside : m.registers.pc < 4096 then
    some (m.entry (m.memory.fetch ⟨m.registers.pc, inside⟩))
  else none

/-- The operation that the next step executes. -/
def nextOp (m : Machine) : Option Op := m.nextEntry.map fun e => e.instruction.op

/-- The prompt that belongs to the next step. -/
def nextPrompt (m : Machine) : String := m.nextOp.elim "" Op.promptText

/-- The line that the next step writes. -/
def nextLine (m : Machine) : String := m.nextOp.elim "" (Op.line m.registers.acc)

/-- The prompts and lines of some steps, or only their lines. -/
def shown (m : Machine) (prompts : Bool) : Nat → String
  | 0 => ""
  | n + 1 =>
    m.shown prompts n ++
      ((if prompts then (m.steps n).nextPrompt else "") ++ (m.steps n).nextLine)

theorem nextEntry_of_running (hrun : m.halted = false) (hpc : m.registers.pc < 4096) :
    m.nextEntry = some (m.entry (m.memory.fetch ⟨m.registers.pc, hpc⟩)) := by
  rw [nextEntry, if_neg (by simp [hrun]), dif_pos hpc]

theorem trace_step (m : Machine) :
    m.step.1.trace = if m.tracing then m.nextEntry.elim m.trace m.trace.push else m.trace := by
  rcases m.step_cases with ⟨hhalted, hstep⟩ | ⟨hrun, hpc, hstep⟩ | ⟨hrun, hpc, hstep⟩
  · simp [hstep, nextEntry, hhalted]
  · simp [hstep, nextEntry, Nat.not_lt.mpr hpc]
  · rw [hstep, (keeps_execute _ _).trace, nextEntry_of_running hrun hpc]
    rfl

theorem tracing_step (m : Machine) : m.step.1.tracing = m.tracing := by
  obtain ⟨_, hkeeps⟩ := m.keeps_step
  exact hkeeps.tracing

/-! ## What one instruction writes -/

theorem text_write (hworks : m.output.mode = .works) (text : String) :
    (m.write text).1.output.text = m.output.text ++ text := by
  rw [write_of_writes (by simp [Output.writes, hworks])]
  rfl

/-- A prompt is all that reading writes, whether the reading succeeds or fails. -/
theorem text_readInto (hworks : m.output.mode = .works) (text : String)
    (value? : RawText → Except Fault Word) :
    (m.readInto text value?).1.output.text =
      m.output.text ++ if m.prompting then text else "" := by
  have hprompted : ∀ {m₁}, m.Prompted text m₁ none →
      m₁.output.text = m.output.text ++ if m.prompting then text else "" := by
    intro m₁ h
    rw [h.output]
    split <;> simp [Output.append]
  have hread := m.readInto_cases text value?
  generalize (m.readInto text value?).1 = m₂, (m.readInto text value?).2 = fault at hread
  cases hread with
  | unprompted hprompt =>
      cases hprompt with
      | unwritten _ hwrites => simp [Output.writes, hworks] at hwrites
      | unflushed _ _ hflushes => simp [Output.flushes, hworks] at hflushes
  | failed hprompt => exact (hprompted hprompt :)
  | ended hprompt => exact (hprompted hprompt :)
  | refused hprompt => exact (hprompted hprompt :)
  | accepted hprompt => exact (hprompted hprompt :)

/-- **An instruction writes its prompt**, if prompts are shown, **and its line.** -/
theorem text_execute (hworks : m.output.mode = .works) (i : Instruction) :
    (m.execute i).1.output.text =
      m.output.text ++
        ((if m.prompting then i.op.promptText else "") ++ i.op.line m.registers.acc) := by
  obtain ⟨op, operand, spare⟩ := i
  cases op
  case readH =>
    have hread := text_readInto hworks wordPrompt typedWord
    simpa [execute, Op.promptText, Op.line] using hread
  case readC =>
    have hread := text_readInto hworks characterPrompt typedCharacter
    simpa [execute, Op.promptText, Op.line] using hread
  case printH =>
    have hwrite := text_write hworks (printedWord m.registers.acc)
    simpa [execute, Op.promptText, Op.line] using hwrite
  case printC =>
    have hwrite := text_write hworks (printedCharacter m.registers.acc)
    simpa [execute, Op.promptText, Op.line] using hwrite
  case jmpe =>
    simp only [execute, Op.promptText, Op.line]
    split <;> simp [setPc]
  case jmpl =>
    simp only [execute, Op.promptText, Op.line]
    split <;> simp [setPc]
  -- no other operation writes
  all_goals simp [execute, setAcc, setPc, Op.promptText, Op.line]

theorem text_step (hworks : m.output.mode = .works) :
    m.step.1.output.text =
      m.output.text ++ ((if m.prompting then m.nextPrompt else "") ++ m.nextLine) := by
  rcases m.step_cases with ⟨hhalted, hstep⟩ | ⟨hrun, hpc, hstep⟩ | ⟨hrun, hpc, hstep⟩
  · simp [hstep, nextPrompt, nextLine, nextOp, nextEntry, hhalted]
  · simp [hstep, nextPrompt, nextLine, nextOp, nextEntry, Nat.not_lt.mpr hpc]
  · rw [hstep, text_execute (by exact hworks), nextPrompt, nextLine, nextOp,
      nextEntry_of_running hrun hpc]
    rfl

/-! ## Many steps -/

theorem Twins.nextEntry (h : m.Twins m') : m'.nextEntry = m.nextEntry := by
  simp only [Machine.nextEntry, entry, h.registers, h.memory, h.halted]

theorem Twins.nextPrompt (h : m.Twins m') : m'.nextPrompt = m.nextPrompt := by
  rw [Machine.nextPrompt, Machine.nextPrompt, nextOp, nextOp, h.nextEntry]

theorem Twins.nextLine (h : m.Twins m') : m'.nextLine = m.nextLine := by
  rw [Machine.nextLine, Machine.nextLine, nextOp, nextOp, h.nextEntry, h.registers]

theorem mode_steps (m : Machine) (n : Nat) : (m.steps n).output.mode = m.output.mode :=
  steps_of_step (·.output.mode) mode_step m n

theorem prompting_steps (m : Machine) (n : Nat) : (m.steps n).prompting = m.prompting :=
  steps_of_step prompting prompting_step m n

theorem tracing_steps (m : Machine) (n : Nat) : (m.steps n).tracing = m.tracing :=
  steps_of_step tracing tracing_step m n

/-- **What some steps write** is what a twin's steps show, with prompts or without. -/
theorem text_steps (h : m.Twins m') (hworks : m.output.mode = .works) (n : Nat) :
    (m'.steps n).output.text = m'.output.text ++ m.shown m'.prompting n := by
  induction n with
  | zero => simp [steps, shown]
  | succ n ih =>
      have htwins := twins_steps h (.inr hworks) n
      have hworks' : (m'.steps n).output.mode = .works := by
        rw [mode_steps, h.mode, hworks]
      rw [steps, text_step hworks', ih, prompting_steps, htwins.nextPrompt, htwins.nextLine,
        shown, List.append_assoc, RawText.ofString_append, RawText.ofString_append]

/-! ## The trace -/

/-- The lines that a trace gains from the next step: one for an instruction that is
fetched, with the place of the fetch and the text of the instruction, and none if the
machine is halted or its counter is no address. -/
inductive Noted (m : Machine) : List String → Prop
  | fetched {i : Instruction} {rest : String} (hrun : m.halted = false)
      (hcurrent : m.current = .ok i) :
      Noted m [String.ofList (Hex.lower 3 m.registers.pc) ++ ": " ++ i.text ++ " " ++ rest]
  | unfetched (hfault : m.step.2 = some .halted ∨ ∃ pc, m.step.2 = some (.outOfBounds pc)) :
      Noted m []

/-- The line of an entry begins with its address and the text of its instruction. -/
theorem text_entry (e : TraceEntry) :
    ∃ rest, e.text =
      String.ofList (Hex.lower 3 e.address) ++ ": " ++ e.instruction.text ++ " " ++ rest := by
  let margin := String.ofList (List.replicate (10 - e.instruction.text.length) ' ')
  have hmargin : margin ++ " " = " " ++ margin := by
    rw [← String.toList_inj]
    simp [margin, ← List.replicate_succ', List.replicate_succ]
  refine ⟨margin ++ e.registers.text, ?_⟩
  have htext : e.text = String.ofList (Hex.lower 3 e.address) ++ ": " ++ e.instruction.text ++
      (margin ++ " ") ++ e.registers.text := by
    simp only [TraceEntry.text, toString, String.append_assoc, margin]
  rw [htext, hmargin]
  simp only [String.append_assoc]

theorem noted (m : Machine) : m.Noted (m.nextEntry.toList.map TraceEntry.text) := by
  by_cases hrun : m.halted = false
  · by_cases hpc : m.registers.pc < 4096
    · rw [nextEntry_of_running hrun hpc]
      obtain ⟨rest, htext⟩ := text_entry (m.entry (m.memory.fetch ⟨m.registers.pc, hpc⟩))
      rw [Option.toList_some, List.map_singleton, htext]
      exact .fetched hrun (by rw [current, dif_pos hpc]; rfl)
    · have hnone : m.nextEntry = none := by simp [nextEntry, hpc]
      rw [hnone]
      exact .unfetched (.inr ⟨_, (m.step_outOfBounds_iff _).mpr ⟨hrun, Nat.not_lt.mp hpc, rfl⟩⟩)
  · have hhalted : m.halted = true := by simpa using hrun
    have hnone : m.nextEntry = none := by simp [nextEntry, hhalted]
    rw [hnone]
    exact .unfetched (.inl (m.step_halted_iff.mpr hhalted))

/-- How the trace of a machine grows: with every step while the machine is traced, and
never otherwise. -/
structure Traces (m : Machine) : Prop where
  on : m.tracing = true → ∀ n, ∃ lines,
    (m.steps n).Noted lines ∧ (m.steps (n + 1)).traceLines = (m.steps n).traceLines ++ lines
  off : m.tracing = false → ∀ n, (m.steps n).traceLines = m.traceLines

/-- **A traced machine notes every fetch.** -/
theorem traces (m : Machine) : m.Traces where
  on htracing n := by
    refine ⟨_, (m.steps n).noted, ?_⟩
    rw [steps, traceLines, trace_step, tracing_steps, if_pos htracing]
    cases (m.steps n).nextEntry <;> simp [traceLines]
  off htracing n := by
    induction n with
    | zero => rfl
    | succ n ih =>
        rw [← ih, steps, traceLines, trace_step, tracing_steps, htracing]
        rfl

/-! ## Calls -/

/-- What may be called on a machine. -/
inductive Call
  | step
  | run (limit : Nat)
  | runToHalt
  deriving DecidableEq, Repr

/-- What a call answers: whether the machine is halted now, the number of steps, or the
fault. -/
inductive Reply
  | stepped (halted : Bool)
  | ran (steps : Nat)
  | failed (fault : Fault)
  deriving DecidableEq, Repr

/-- What a run answers. -/
def Reply.ofRun (r : Run) : Reply := r.fault.elim (.ran r.steps) .failed

/-- Calls a machine. There is no answer if a run to the halt takes more than `bound`
steps. -/
def call (bound : Nat) (m : Machine) : Call → Option (Machine × Reply)
  | .step =>
    match m.step with
    | (m, none) => some (m, .stepped m.halted)
    | (m, some fault) => some (m, .failed fault)
  | .run limit => some ((m.run limit).machine, .ofRun (m.run limit))
  | .runToHalt => (m.runToHalt bound).map fun r => (r.machine, .ofRun r)

/-- Calls a machine again and again, also after faults. -/
def callAll (bound : Nat) : Machine → List Call → Option (Machine × List Reply)
  | m, [] => some (m, [])
  | m, call :: calls =>
    match m.call bound call with
    | none => none
    | some (m, reply) => (callAll bound m calls).map fun r => (r.1, reply :: r.2)

/-- Twins run for the same number of steps, with the same count and fault. -/
theorem twins_run (h : m.Twins m') (hprompts : m.PromptsAlike m') (limit : Nat) :
    ∃ n count fault, m.run limit = ⟨m.steps n, count, fault⟩ ∧
      m'.run limit = ⟨m'.steps n, count, fault⟩ := by
  have hfirst := twins_firstStop_iff h hprompts
  have hruns := m.runs limit
  generalize m.run limit = r at hruns
  cases hruns with
  | halted hk hstop hnone =>
      rw [← fault_steps h hprompts] at hnone
      exact ⟨_, _, _, rfl, (m'.runs limit).unique (.halted hk ((hfirst _).mpr hstop) hnone)⟩
  | faulted hk hstop hfault =>
      rw [← fault_steps h hprompts] at hfault
      exact ⟨_, _, _, rfl, (m'.runs limit).unique (.faulted hk ((hfirst _).mpr hstop) hfault)⟩
  | ongoing hstops =>
      have hstops' : ∀ k < limit, ¬ m'.Stops k := fun k hk =>
        mt (twins_stops_iff h hprompts k).mp (hstops k hk)
      exact ⟨_, _, _, rfl, (m'.runs limit).unique (.ongoing hstops')⟩

/-- The calls come to the same end: both have no answer, or both take the same number
of steps and answer alike. -/
def AnswerAlike {α : Type} (m m' : Machine) (r r' : Option (Machine × α)) : Prop :=
  (r = none ∧ r' = none) ∨
    ∃ n answer, r = some (m.steps n, answer) ∧ r' = some (m'.steps n, answer)

theorem twins_call (h : m.Twins m') (hprompts : m.PromptsAlike m') (bound : Nat) (c : Call) :
    AnswerAlike m m' (m.call bound c) (m'.call bound c) := by
  cases c with
  | step =>
      obtain ⟨htwins, hfault⟩ := twins_step h hprompts
      refine .inr ⟨1, m.step.2.elim (.stepped m.step.1.halted) .failed, ?_, ?_⟩
      · rw [call, steps, steps]
        rcases m.step with ⟨_, _ | _⟩ <;> rfl
      · rw [call, steps, steps, ← htwins.halted, ← hfault]
        rcases m'.step with ⟨_, _ | _⟩ <;> rfl
  | run limit =>
      obtain ⟨n, count, fault, hrun, hrun'⟩ := twins_run h hprompts limit
      refine .inr ⟨n, .ofRun ⟨m.steps n, count, fault⟩, ?_, ?_⟩
      · rw [call, hrun]
      · rw [call, hrun']
        rfl
  | runToHalt =>
      obtain ⟨n, count, fault, hrun, hrun'⟩ := twins_run h hprompts bound
      have hhalted : (m'.steps n).halted = (m.steps n).halted := (twins_steps h hprompts n).halted
      rw [call, call, runToHalt, runToHalt, hrun, hrun']
      dsimp only
      rw [hhalted]
      split
      · exact .inr ⟨n, _, rfl, rfl⟩
      · exact .inl ⟨rfl, rfl⟩

theorem twins_callAll (h : m.Twins m') (hprompts : m.PromptsAlike m') (bound : Nat)
    (calls : List Call) :
    AnswerAlike m m' (m.callAll bound calls) (m'.callAll bound calls) := by
  induction calls generalizing m m' with
  | nil => exact .inr ⟨0, [], rfl, rfl⟩
  | cons c calls ih =>
      rw [callAll, callAll]
      rcases twins_call h hprompts bound c with ⟨hnone, hnone'⟩ | ⟨n, reply, hsome, hsome'⟩
      · rw [hnone, hnone']
        exact .inl ⟨rfl, rfl⟩
      · rw [hsome, hsome']
        dsimp only
        rcases ih (twins_steps h hprompts n) (hprompts.steps n) with
          ⟨hnone, hnone'⟩ | ⟨k, replies, hsome, hsome'⟩
        · rw [hnone, hnone']
          exact .inl ⟨rfl, rfl⟩
        · refine .inr ⟨n + k, reply :: replies, ?_, ?_⟩
          · rw [hsome, steps_add]
            rfl
          · rw [hsome', steps_add]
            rfl

/-! ## Two machines that differ in their switches -/

/-- The second machine computes what the first computes, and only shows it in another
way. -/
structure ShownDifferently (m m' : Machine) : Prop where
  /-- Whatever is called, the answers are the same, behind the same number of steps. -/
  answers : ∀ bound calls, AnswerAlike m m' (m.callAll bound calls) (m'.callAll bound calls)
  /-- The registers, the memory, the flag and what is left to read are the same. -/
  twins : ∀ n, (m.steps n).Twins (m'.steps n)
  faults : ∀ n, (m'.steps n).step.2 = (m.steps n).step.2
  /-- Each machine writes the same lines in the same order, with the prompts between them
  exactly if it shows prompts. -/
  text : ∀ n, (m.steps n).output.text = m.output.text ++ m.shown m.prompting n
  text' : ∀ n, (m'.steps n).output.text = m'.output.text ++ m.shown m'.prompting n
  trace : m.Traces
  trace' : m'.Traces

/-- **The switches only show**: with an output that works, a machine computes the same
whether or not it prompts and is traced. -/
theorem shownDifferently (m : Machine) (prompting tracing : Bool)
    (hworks : m.output.mode = .works) :
    m.ShownDifferently { m with prompting, tracing } := by
  have htwins : m.Twins { m with prompting, tracing } := ⟨rfl, rfl, rfl, rfl, rfl⟩
  have hprompts : m.PromptsAlike { m with prompting, tracing } := .inr hworks
  exact
    { answers := twins_callAll htwins hprompts
      twins := twins_steps htwins hprompts
      faults := fault_steps htwins hprompts
      text := text_steps (.refl m) hworks
      text' := text_steps htwins hworks
      trace := traces _
      trace' := traces _ }

/-- A program that reads and prints, with its prompt and without. -/
theorem shownDifferently_reading :
    let m : Machine :=
      { memory := Memory.ofWords [0x1000, 0x1800, 0] (by decide), input := .ofText "2a\n".toList }
    let m' : Machine := { m with prompting := false, tracing := true }
    m.output.mode = .works ∧ m.ShownDifferently m' ∧
      (m.steps 3).output.text = "Enter hexadecimal word: 002a\n" ∧
      (m'.steps 3).output.text = "002a\n" :=
  ⟨rfl, shownDifferently _ false true rfl, rfl, rfl⟩

end Machine

end IttyBitty
