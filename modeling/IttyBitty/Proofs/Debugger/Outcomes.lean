import IttyBitty.Proofs.Debugger.Driving
import IttyBitty.Proofs.Text.Hexadecimal
import IttyBitty.Proofs.Text.Trimming

/-!
# How command lines end

A line asks to quit by its first word alone. Any other goes on or fails, with an error of the
debugger or a fault of a step, and the message of that is one line but for a word of the
line itself that it quotes. What a line does is the same under every bound that suffices
for it.
-/

namespace IttyBitty

/-! ## Messages of faults -/

/-- There is no line feed in the text. -/
def OneLine (text : RawText) : Prop := .char '\n' ∉ text

instance (text : RawText) : Decidable (OneLine text) := inferInstanceAs (Decidable (_ ∉ _))

theorem OneLine.append {text text' : RawText} (h : OneLine text) (h' : OneLine text') :
    OneLine (text ++ text') := by
  rw [OneLine, List.mem_append, not_or]
  exact ⟨h, h'⟩

theorem oneLine_lower (width n : Nat) : OneLine (String.ofList (Hex.lower width n)) := by
  rw [OneLine, RawText.ofString_ofList, RawText.mem_ofText]
  intro h
  have hdigit := Hex.isDigit_of_mem_lower h
  revert hdigit
  decide

/-- What a fault quotes of a line that was read. -/
def Fault.quoted : Fault → RawText
  | .wordLength line | .wordDigits line | .notOneCharacter line | .unencodable line => line
  | _ => []

theorem Fault.oneLine_message {fault : Fault} (h : OneLine fault.quoted) :
    OneLine fault.message := by
  cases fault with
  | outOfBounds pc =>
      rw [Fault.message, RawText.ofString_append]
      exact OneLine.append (by decide) (oneLine_lower 1 pc)
  | wordLength line => exact (OneLine.append (by decide) h).append (by decide)
  | wordDigits line => exact (OneLine.append (by decide) h).append (by decide)
  | notOneCharacter line => exact (OneLine.append (by decide) h).append (by decide)
  | unencodable line => exact List.not_mem_nil
  | halted => decide
  | inputFailed => decide
  | inputEnded => decide
  | outputFailed => decide
  | promptFailed => decide

/-! ## Faults of steps -/

namespace Machine

variable {m m' : Machine} {fault : Fault}

theorem quoted_of_typedWord {line : RawText} (h : typedWord line = .error fault) :
    fault.quoted = line := by
  rcases typedWord_refused h with rfl | rfl <;> rfl

theorem quoted_of_typedCharacter {line : RawText} (h : typedCharacter line = .error fault) :
    fault.quoted = line := by
  rcases typedCharacter_refused h with rfl | ⟨-, rfl⟩ <;> rfl

/-- A line that has been trimmed has lost its line feed. -/
theorem oneLine_trim {input rest : Input} {line : RawText} (h : input.Yields line rest) :
    OneLine (RawText.trim line) := by
  rcases h.ends with ⟨body, rfl, hbody⟩ | ⟨-, hline, -⟩
  · rw [RawText.trim, stripped_append body rfl]
    exact fun hmem => hbody (mem_of_mem_stripped hmem)
  · exact fun hmem => hline (mem_of_mem_stripped hmem)

theorem Prompted.oneLine_quoted {text : String} (h : m.Prompted text m' (some fault)) :
    OneLine fault.quoted := by
  cases h <;> exact List.not_mem_nil

theorem ReadInto.oneLine_quoted {text : String} {value? : RawText → Except Fault Word}
    (hquoted : ∀ {line fault}, value? line = .error fault → fault.quoted = line)
    (h : m.ReadInto text value? m' (some fault)) : OneLine fault.quoted := by
  cases h with
  | unprompted hprompt => exact hprompt.oneLine_quoted
  | failed => exact List.not_mem_nil
  | ended => exact List.not_mem_nil
  | refused hprompt hread hvalue =>
      rw [hquoted hvalue]
      exact oneLine_trim (Input.yields_of_readLine hread)

theorem oneLine_quoted_of_write {text : String} (h : (m.write text).2 = some fault) :
    OneLine fault.quoted := by
  rw [write] at h
  split at h
  · cases h
  · cases h
    exact List.not_mem_nil

theorem oneLine_quoted_of_execute {i : Instruction} (h : (m.execute i).2 = some fault) :
    OneLine fault.quoted := by
  obtain ⟨op, operand, spare⟩ := i
  cases op
  case readH =>
    have hread := m.readInto_cases wordPrompt typedWord
    rw [show (m.readInto wordPrompt typedWord).2 = _ from h] at hread
    exact hread.oneLine_quoted quoted_of_typedWord
  case readC =>
    have hread := m.readInto_cases characterPrompt typedCharacter
    rw [show (m.readInto characterPrompt typedCharacter).2 = _ from h] at hread
    exact hread.oneLine_quoted quoted_of_typedCharacter
  case printH => exact oneLine_quoted_of_write h
  case printC => exact oneLine_quoted_of_write h
  -- no other operation has a fault to end in
  all_goals cases h

/-- **The message of a fault is one line**, whatever has been read. -/
theorem oneLine_of_step (h : m.step.2 = some fault) : OneLine fault.message := by
  apply Fault.oneLine_message
  rcases m.step_cases with ⟨-, hstep⟩ | ⟨-, -, hstep⟩ | ⟨-, hpc, hstep⟩
  · rw [hstep] at h
    cases h
    exact List.not_mem_nil
  · rw [hstep] at h
    cases h
    exact List.not_mem_nil
  · rw [hstep] at h
    exact oneLine_quoted_of_execute h

/-- The fault of a run is that of the first step that stops it. -/
theorem step_of_run_fault {n : Nat} (h : (m.run n).fault = some fault) :
    ∃ k < n, m.FirstStop k ∧ (m.steps k).step.2 = some fault := by
  have hruns := m.runs n
  generalize m.run n = r at hruns h
  cases hruns with
  | halted => cases h
  | faulted hk hfirst hfault =>
      cases h
      exact ⟨_, hk, hfirst, hfault⟩
  | ongoing => cases h

end Machine

namespace Debugger

open Machine

variable {d d' : Debugger} {bound bound' : Nat} {line : RawText}

/-! ## Lines that do not quit -/

/-- How a line ends that does not ask to quit: it goes on, it is refused, it has shown a
program counter that is no address, or the machine has come to a fault. -/
inductive Ends (m : Machine) : Outcome → Prop
  | continues : Ends m .continues
  | refused (error : CommandError) : Ends m (.failed (.command error))
  | outside (pc : Nat) : Ends m (.failed (.fault (.outOfBounds pc)))
  | faulted {k : Nat} {fault : Fault} (hfault : (m.steps k).step.2 = some fault) :
      Ends m (.failed (.fault fault))
  | unfinished : Ends m .unfinished

theorem ends_dump (d : Debugger) (arguments : List RawText) : Ends d.machine (d.dump arguments).2 := by
  rw [dump.eq_def]
  split
  · split
    · exact .refused _
    · split
      · exact .refused _
      · exact .continues
  · exact .refused _

theorem ends_status (d : Debugger) (arguments : List RawText) :
    Ends d.machine (d.status arguments).2 := by
  rw [status]
  split
  · exact .refused _
  · dsimp only
    rw [current]
    split
    · rename_i hfault
      split at hfault
      · cases hfault
      · cases hfault
        exact .outside _
    · exact .continues

theorem ends_reported {r : Run} {n : Nat} (history : Array (RawText × List RawText)) (message : String)
    (hr : r = d.machine.run n) :
    Ends d.machine (({ d with history } : Debugger).reported r message).2 := by
  rw [reported_outcome]
  cases hfault : r.fault with
  | none => exact .continues
  | some fault =>
      rw [hr] at hfault
      obtain ⟨k, -, -, hk⟩ := step_of_run_fault hfault
      exact .faulted hk

/-- A line that makes a running machine step ends with the run. -/
theorem Obeyed.ends {wanted : Demand} {r : Debugger × Outcome} (h : Obeyed bound d wanted r)
    (hwanted : wanted ≠ .nothing) (hrun : d.machine.halted = false) : Ends d.machine r.2 := by
  cases h with
  | idle h =>
      rcases h with hnothing | hhalted
      · exact absurd hnothing hwanted
      · simp [hrun] at hhalted
  | @step n history => exact ends_reported history _ rfl
  | @run r history _ hr =>
      rw [runToHalt] at hr
      split at hr
      · exact ends_reported history _ (Option.some.inj hr).symm
      · cases hr
  | unfinished => exact .unfinished

/-- The fault of a line is a program counter that is no address, or the fault of the last of
the steps that the line takes. -/
theorem Obeyed.of_fault {wanted : Demand} {r : Debugger × Outcome} {fault : Fault}
    (h : Obeyed bound d wanted r) (hr : r.2 = .failed (.fault fault)) :
    (∃ pc, fault = .outOfBounds pc) ∨
      ∃ k, Takes d.machine wanted (k + 1) ∧ (d.machine.steps k).step.2 = some fault := by
  have hreported {d : Debugger} {run : Run} {message : String}
      (heq : (d.reported run message).2 = .failed (.fault fault)) : run.fault = some fault := by
    rw [reported_outcome] at heq
    cases hrun : run.fault <;> rw [hrun] at heq <;> cases heq
    rfl
  cases h with
  | idle _ hleaves => exact .inl (hleaves.faulted fault hr)
  | step hrun =>
      obtain ⟨k, hk, hfirst, hfault⟩ := step_of_run_fault (hreported hr)
      exact .inr ⟨k, .stopped hrun hk hfirst, hfault⟩
  | run hrun hhalt =>
      rw [runToHalt] at hhalt
      split at hhalt
      · cases hhalt
        obtain ⟨k, -, hfirst, hfault⟩ := step_of_run_fault (hreported hr)
        exact .inr ⟨k, .ran hrun hfirst, hfault⟩
      · cases hhalt
  | unfinished => cases hr

/-- An error that the shell does not answer is a fault, but none of the machine's own. -/
theorem Error.of_escape? {error : Error} {fault : Fault} (h : error.escape? = some fault) :
    error = .fault fault ∧ fault.isOwn = false := by
  cases error with
  | command => cases h
  | fault f =>
      rw [Error.escape?] at h
      cases hown : f.isOwn <;> rw [hown] at h <;> cases h
      exact ⟨rfl, hown⟩

theorem ends_run (bound : Nat) (d : Debugger) (arguments : List RawText) :
    Ends d.machine (d.run bound arguments).2 := by
  cases arguments with
  | cons argument arguments => exact .refused _
  | nil =>
      by_cases hhalted : d.machine.halted = true
      · rw [run, if_neg (by decide), if_pos hhalted]
        exact .refused _
      · exact (d.obeyed_run bound []).ends (by simp [runDemand]) (by simpa using hhalted)

theorem ends_step (d : Debugger) (arguments : List RawText) : Ends d.machine (d.step arguments).2 := by
  have hobeyed := d.obeyed_step 0 arguments
  rw [stepDemand_eq] at hobeyed
  cases hcount : stepCount arguments with
  | error error =>
      rw [step, hcount]
      exact .refused _
  | ok n =>
      by_cases hhalted : d.machine.halted = true
      · rw [step, hcount]
        dsimp only
        rw [if_pos hhalted]
        exact .refused _
      · rw [hcount] at hobeyed
        exact hobeyed.ends (by simp) (by simpa using hhalted)

theorem ends_perform (bound : Nat) (d : Debugger) (arguments : List RawText) {command : Command}
    (hcommand : command ≠ .quit) : Ends d.machine (d.perform bound arguments command).2 := by
  cases command with
  | quit => exact absurd rfl hcommand
  | help => exact .continues
  | dump => exact d.ends_dump arguments
  | run => exact d.ends_run bound arguments
  | status => exact d.ends_status arguments
  | step => exact d.ends_step arguments

/-- The first word of the line is the command to quit. -/
def AsksToQuit (line : RawText) : Prop :=
  ∃ arguments, ShellWords.split line = .ok ((Command.quit.name : RawText) :: arguments)

/-- A line that asks to quit does nothing else. -/
theorem AsksToQuit.executeLine (h : AsksToQuit line) (d : Debugger) :
    ∃ history, ∀ bound, d.executeLine bound line = ({ d with history }, .quits) := by
  obtain ⟨arguments, hsplit⟩ := h
  refine ⟨d.history.push (Command.quit.name, arguments), fun bound => ?_⟩
  rw [Debugger.executeLine, hsplit]
  dsimp only
  rw [execute, Command.ofName?_name]
  rfl

/-- **Any other line ends otherwise.** -/
theorem ends_executeLine (hstays : ¬ AsksToQuit line) (bound : Nat) (d : Debugger) :
    Ends d.machine (d.executeLine bound line).2 := by
  rw [executeLine]
  cases hsplit : ShellWords.split line with
  | error error => exact .refused _
  | ok words =>
      cases words with
      | nil => exact .continues
      | cons word arguments =>
          dsimp only
          rw [execute]
          cases hcommand : Command.ofName? word with
          | none => exact .refused _
          | some command =>
              have hword := Command.eq_name_of_ofName? hcommand
              have hquit : command ≠ .quit := by
                rintro rfl
                exact hstays ⟨arguments, by rw [hsplit, hword]⟩
              have hperform := ends_perform bound
                { d with history := d.history.push (word, arguments) } arguments hquit
              exact hperform

theorem CommandError.oneLine_message (error : CommandError) :
    OneLine error.message ∨ ∃ word, error = .unknownCommand word ∧ .char '\n' ∈ word := by
  cases error with
  | unknownCommand word =>
      by_cases hword : .char '\n' ∈ word
      · exact .inr ⟨word, rfl, hword⟩
      · exact .inl ((OneLine.append (by decide) hword).append (by decide))
  | malformedLine error => cases error <;> exact .inl (by decide)
  | missingAmount => exact .inl (by decide)
  | invalidAmount => exact .inl (by decide)
  | amountTooLarge => exact .inl (by decide)
  | invalidSteps => exact .inl (by decide)
  | tooManyArguments => exact .inl (by decide)
  | unexpectedArguments => exact .inl (by decide)
  | halted => exact .inl (by decide)

/-- **What goes wrong is told in one line**, unless a word is no command that has a line
feed in it, as one has behind a backslash. -/
theorem Ends.oneLine_message {m : Machine} {error : Error} (h : Ends m (.failed error)) :
    OneLine error.message ∨
      ∃ word, error = .command (.unknownCommand word) ∧ .char '\n' ∈ word := by
  cases h with
  | refused error =>
      rcases error.oneLine_message with honeLine | ⟨word, rfl, hword⟩
      · exact .inl honeLine
      · exact .inr ⟨word, rfl, hword⟩
  | outside pc => exact .inl (@Fault.oneLine_message (.outOfBounds pc) List.not_mem_nil)
  | faulted hfault => exact .inl (oneLine_of_step hfault)

/-! ## Larger bounds -/

theorem untilHalt_of_le {done : Nat} {m : Machine} {r : Machine × Except Fault Nat}
    (h : untilHalt done bound m = some r) (hle : bound ≤ bound') :
    untilHalt done bound' m = some r := by
  induction bound generalizing done m bound' with
  | zero => cases h
  | succ bound ih =>
      obtain ⟨bound', rfl⟩ := Nat.exists_eq_add_of_le' (by omega : 1 ≤ bound')
      rw [untilHalt] at h ⊢
      rcases hm : m.step with ⟨m', _ | fault⟩ <;> rw [hm] at h
      · dsimp only at h ⊢
        split
        · rename_i hhalted
          rwa [if_pos hhalted] at h
        · rename_i hhalted
          rw [if_neg hhalted] at h
          exact ih h (by omega)
      · exact h

theorem run_of_le (arguments : List RawText) (h : (d.run bound arguments).2 ≠ .unfinished)
    (hle : bound ≤ bound') : d.run bound' arguments = d.run bound arguments := by
  rw [run] at h ⊢
  rw [run]
  by_cases harguments : (!arguments.isEmpty) = true
  · rw [if_pos harguments, if_pos harguments]
  · rw [if_neg harguments] at h ⊢
    rw [if_neg harguments]
    by_cases hhalted : d.machine.halted = true
    · rw [if_pos hhalted, if_pos hhalted]
    · rw [if_neg hhalted] at h ⊢
      rw [if_neg hhalted]
      cases hr : untilHalt 0 bound d.machine with
      | none =>
          rw [hr] at h
          exact absurd rfl h
      | some r => rw [untilHalt_of_le hr hle]

/-- **No bound but a smaller one makes a difference.** -/
theorem executeLine_of_le (h : (d.executeLine bound line).2 ≠ .unfinished)
    (hle : bound ≤ bound') : d.executeLine bound' line = d.executeLine bound line := by
  rw [executeLine] at h ⊢
  rw [executeLine]
  cases hsplit : ShellWords.split line with
  | error error => rfl
  | ok words =>
      rw [hsplit] at h
      cases words with
      | nil => rfl
      | cons word arguments =>
          simp only [execute] at h ⊢
          cases hcommand : Command.ofName? word with
          | none => rfl
          | some command =>
              rw [hcommand] at h
              -- only one of the commands looks at the bound
              cases command with
              | run => exact run_of_le arguments h hle
              | quit => rfl
              | help => rfl
              | dump => rfl
              | status => rfl
              | step => rfl

end Debugger

end IttyBitty
