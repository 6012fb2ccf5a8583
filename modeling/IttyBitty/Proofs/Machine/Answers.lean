import IttyBitty.Proofs.Machine.Switches
import IttyBitty.Proofs.Text.Trimming

/-!
# What a machine takes from its input

A step takes a line off the input if it executes an instruction that reads, whose prompt
can be shown; no other step touches the input. What has been written stays, and more may
come behind it. So the lines that some steps have taken are the ones that answer their
reading instructions, in the order of these.
-/

namespace IttyBitty.Machine

variable {m m' m'' : Machine}

/-! ## The answer to a step -/

/-- The line that a reading instruction gets: there is none behind a prompt that cannot be
shown, nor at the end of the input. -/
def heard? (m : Machine) : Option RawText :=
  if (m.prompt "").2 = none then m.input.readLine.1.line? else none

/-- The line that an operation takes: two of them read. -/
def taken? (m : Machine) (op : Op) : Option RawText :=
  if op ∈ [Op.readH, .readC] then m.heard? else none

/-- The line that answers the instruction of the next step. -/
def answer? (m : Machine) : Option RawText := m.nextOp.bind m.taken?

/-- The lines that answer the instructions of some steps. -/
def answers (m : Machine) : Nat → List RawText
  | 0 => []
  | n + 1 => m.answers n ++ (m.steps n).answer?.toList

/-- A prompt that is shown or fails would do so with any text. -/
theorem Prompted.fault_eq {text text' : String} {fault : Option Fault}
    (h : m.Prompted text m' fault) : (m.prompt text').2 = fault := by
  rw [prompt_fault]
  cases h <;> simp_all

/-! ## Exchanges -/

/-- The first machine has become the second by taking lines off its input and by writing
behind what it had written. -/
structure Exchanges (m : Machine) (lines : List RawText) (m' : Machine) : Prop where
  works : m.input.Works → m'.input.Works
  taken : m.input.Works → m.input.toRead = lines ++ m'.input.toRead
  left : m'.input.unread ⊆ m.input.unread
  written : ∃ text : RawText, m'.output.text = m.output.text ++ text

theorem Exchanges.of_input {text : RawText} (hinput : m'.input = m.input)
    (htext : m'.output.text = m.output.text ++ text) : m.Exchanges [] m' :=
  ⟨fun h => by rw [hinput]; exact h, fun _ => by rw [hinput]; rfl,
    by rw [hinput]; exact List.Subset.refl _, text, htext⟩

theorem Exchanges.of_streams (hinput : m'.input = m.input) (houtput : m'.output = m.output) :
    m.Exchanges [] m' :=
  @of_input m m' [] hinput (by rw [houtput, List.append_nil])

theorem Exchanges.refl (m : Machine) : m.Exchanges [] m := .of_streams rfl rfl

theorem Exchanges.trans {lines lines' : List RawText} (h : m.Exchanges lines m')
    (h' : m'.Exchanges lines' m'') : m.Exchanges (lines ++ lines') m'' := by
  obtain ⟨text, htext⟩ := h.written
  obtain ⟨text', htext'⟩ := h'.written
  refine ⟨fun hm => h'.works (h.works hm), fun hm => ?_, List.Subset.trans h'.left h.left,
    text ++ text', ?_⟩
  · rw [h.taken hm, h'.taken (h.works hm), List.append_assoc]
  · rw [htext', htext, List.append_assoc]

/-! ## Instructions -/

theorem Prompted.exchanges {text : String} {fault : Option Fault}
    (h : m.Prompted text m' fault) : m.Exchanges [] m' := by
  cases h with
  | silent => exact .refl m
  | shown => exact @Exchanges.of_input m _ text rfl rfl
  | unwritten => exact .refl m
  | unflushed => exact @Exchanges.of_input m _ text rfl rfl

theorem exchanges_write (m : Machine) (text : String) : m.Exchanges [] (m.write text).1 := by
  rw [write]
  split
  · exact @Exchanges.of_input m _ text rfl rfl
  · exact .refl m

/-- A reading that is asked for takes the line that the instruction gets. -/
theorem Prompted.exchanges_read {text : String} {reading : Reading} {rest : Input}
    (h : m.Prompted text m' none) (hread : m'.input.readLine = (reading, rest)) :
    m.Exchanges m.heard?.toList { m' with input := rest } := by
  rw [h.input] at hread
  have hheard : m.heard? = reading.line? := by
    rw [heard?, if_pos h.fault_eq, hread]
  obtain ⟨text', htext⟩ := h.exchanges.written
  refine ⟨fun hm => ?_, fun hm => ?_, ?_, text', htext⟩
  · obtain ⟨after, hafter, -, hread'⟩ := hm.readLine
    rw [hread] at hread'
    cases hread'
    exact hafter
  · rw [hm.toRead, hread, hheard]
  · have hleft := m.input.unread_readLine_subset
    rwa [hread] at hleft

theorem ReadInto.exchanges {text : String} {value? : RawText → Except Fault Word}
    {fault : Option Fault} (h : m.ReadInto text value? m' fault) :
    m.Exchanges m.heard?.toList m' := by
  cases h with
  | @unprompted _ fault hprompt =>
      have hheard : m.heard? = none := by
        rw [heard?, if_neg]
        rw [hprompt.fault_eq]
        nofun
      rw [hheard]
      exact hprompt.exchanges
  | failed hprompt hread => exact hprompt.exchanges_read hread
  | ended hprompt hread => exact hprompt.exchanges_read hread
  | refused hprompt hread => exact hprompt.exchanges_read hread
  | accepted hprompt hread =>
      obtain ⟨hworks, htaken, hleft, hwritten⟩ := hprompt.exchanges_read hread
      exact ⟨hworks, htaken, hleft, hwritten⟩

/-- **An instruction takes its line and no other.** -/
theorem exchanges_execute (m : Machine) (i : Instruction) :
    m.Exchanges (m.taken? i.op).toList (m.execute i).1 := by
  obtain ⟨op, operand, spare⟩ := i
  cases op
  case readH => exact (m.readInto_cases wordPrompt typedWord).exchanges
  case readC => exact (m.readInto_cases characterPrompt typedCharacter).exchanges
  case printH => exact m.exchanges_write _
  case printC => exact m.exchanges_write _
  -- a jump may not be taken; then nothing changes at all
  case jmpe =>
    show m.Exchanges [] (if _ then _ else m)
    split <;> exact .of_streams rfl rfl
  case jmpl =>
    show m.Exchanges [] (if _ then _ else m)
    split <;> exact .of_streams rfl rfl
  all_goals exact .of_streams rfl rfl

/-! ## Steps -/

/-- The answer to a step is the line that its instruction takes. -/
theorem answer?_of_running (hrun : m.halted = false) (hpc : m.registers.pc < 4096) :
    m.answer? =
      (m.behind (m.memory.fetch ⟨m.registers.pc, hpc⟩)).taken?
        (Instruction.decode (m.memory.fetch ⟨m.registers.pc, hpc⟩)).op := by
  have hheard (w : Word) : (m.behind w).heard? = m.heard? := by
    rw [heard?, heard?, prompt_fault, prompt_fault]
    rfl
  rw [answer?, nextOp, nextEntry_of_running hrun hpc, taken?, hheard]
  rfl

theorem exchanges_step (m : Machine) : m.Exchanges m.answer?.toList m.step.1 := by
  rcases m.step_cases with ⟨hhalted, hstep⟩ | ⟨hrun, hpc, hstep⟩ | ⟨hrun, hpc, hstep⟩
  · have hnone : m.answer? = none := by simp [answer?, nextOp, nextEntry, hhalted]
    rw [hstep, hnone]
    exact .refl m
  · have hnone : m.answer? = none := by simp [answer?, nextOp, nextEntry, Nat.not_lt.mpr hpc]
    rw [hstep, hnone]
    exact .refl m
  · let w := m.memory.fetch ⟨m.registers.pc, hpc⟩
    rw [hstep, answer?_of_running hrun hpc]
    have hbehind : m.Exchanges [] (m.behind w) := .of_streams rfl rfl
    exact hbehind.trans ((m.behind w).exchanges_execute _)

/-! ## Answers that cannot be encoded -/

/-- A fault that is not the machine's own comes from a line that is read for a character. -/
theorem execute_of_not_own {i : Instruction} {fault : Fault}
    (h : (m.execute i).2 = some fault) (hown : fault.isOwn = false) :
    i.op = .readC ∧ ∃ line, m.heard? = some line ∧ RawText.text? (RawText.trim line) = none := by
  obtain ⟨line, rfl⟩ : ∃ line, fault = .unencodable line := by
    cases fault <;> first | exact ⟨_, rfl⟩ | cases hown
  have hop : i.op = .readC := by
    rcases (interrupted_of_execute (Prod.ext rfl h)).cause with ⟨hkind, -⟩ | ⟨hop, -⟩ | ⟨hkind, -⟩
    · cases hkind
    · exact hop
    · cases hkind
  obtain ⟨op, operand, spare⟩ := i
  obtain rfl : op = .readC := hop
  have hcases := m.readInto_cases characterPrompt typedCharacter
  rw [show (m.readInto characterPrompt typedCharacter).2 = _ from h] at hcases
  generalize (m.readInto characterPrompt typedCharacter).1 = m' at hcases
  refine ⟨rfl, ?_⟩
  cases hcases with
  | unprompted hprompt => cases hprompt
  | @refused _ _ line' _ hprompt hread hvalue =>
      refine ⟨line', ?_, ?_⟩
      · rw [heard?, if_pos hprompt.fault_eq, ← hprompt.input, hread]
        rfl
      · rcases typedCharacter_refused hvalue with heq | ⟨hnone, -⟩
        · cases heq
        · exact hnone

/-- **A step that ends in a fault which is not the machine's own** has read a line for a
character, and the line holds a surrogate. -/
theorem step_of_not_own {fault : Fault} (h : m.step.2 = some fault) (hown : fault.isOwn = false) :
    m.nextOp = some .readC ∧
      ∃ line, m.answer? = some line ∧ RawText.text? (RawText.trim line) = none := by
  rcases m.step_cases with ⟨-, hstep⟩ | ⟨-, -, hstep⟩ | ⟨hrun, hpc, hstep⟩
  · rw [hstep] at h
    cases h
    cases hown
  · rw [hstep] at h
    cases h
    cases hown
  · rw [hstep] at h
    obtain ⟨hop, line, hheard, hnone⟩ := execute_of_not_own h hown
    refine ⟨?_, line, ?_, hnone⟩
    · rw [nextOp, nextEntry_of_running hrun hpc]
      exact congrArg some hop
    · rw [answer?_of_running hrun hpc, hop]
      exact hheard

/-- There has been a surrogate in the input then. -/
theorem surrogate_of_step {fault : Fault} (h : m.step.2 = some fault) (hown : fault.isOwn = false) :
    ∃ n, .surrogate n ∈ m.input.unread := by
  obtain ⟨hop, line, hanswer, hnone⟩ := step_of_not_own h hown
  have hheard : m.heard? = some line := by
    rw [answer?, hop] at hanswer
    exact hanswer
  rw [heard?] at hheard
  split at hheard
  case isFalse => cases hheard
  have hread : m.input.readLine = (.line line, m.input.readLine.2) := by
    refine Prod.ext ?_ rfl
    cases hreading : m.input.readLine.1 <;> rw [hreading] at hheard <;> cases hheard
    rfl
  obtain ⟨n, hn⟩ := RawText.exists_surrogate hnone
  refine ⟨n, ?_⟩
  rw [(Input.yields_of_readLine hread).unread]
  exact List.mem_append_left _ (mem_of_mem_stripped hn)

/-! ## Many steps -/

/-- **Some steps take the lines that answer their instructions**, each once and in order,
and leave the others. -/
theorem exchanges_steps (m : Machine) (n : Nat) : m.Exchanges (m.answers n) (m.steps n) := by
  induction n with
  | zero => exact .refl m
  | succ n ih => exact ih.trans (m.steps n).exchanges_step

/-- No step of a machine comes to such a fault unless there is a surrogate in its input. -/
theorem surrogate_of_steps {fault : Fault} {n : Nat} (h : (m.steps n).step.2 = some fault)
    (hown : fault.isOwn = false) : ∃ n, .surrogate n ∈ m.input.unread := by
  obtain ⟨p, hp⟩ := surrogate_of_step h hown
  exact ⟨p, (m.exchanges_steps n).left hp⟩

end IttyBitty.Machine
