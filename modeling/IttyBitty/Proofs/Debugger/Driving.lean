import IttyBitty.Proofs.Debugger.Demands

/-!
# Driving a machine by command lines

The debugger takes the steps that a command line asks for and no others, and prints.
Behind a sequence of lines the machine is the one that has taken all their steps, but
for what stands in its output if that is the screen of the debugger.
-/

namespace IttyBitty.Debugger

open Machine

/-! ## Printing -/

variable {d d' : Debugger} {wanted : Demand}

theorem print_empty (d : Debugger) : d.print "" = d := by
  obtain ⟨machine, keyboard, _ | _, history⟩ := d <;> simp [print, Output.append]

theorem print_print (d : Debugger) (text text' : RawText) :
    (d.print text).print text' = d.print (text ++ text') := by
  obtain ⟨machine, keyboard, _ | _, history⟩ := d <;> simp [print, Output.append]

theorem printLines_eq (d : Debugger) (lines : List String) :
    ∃ text, d.printLines lines = d.print text := by
  induction lines generalizing d with
  | nil => exact ⟨"", d.print_empty.symm⟩
  | cons line lines ih =>
      obtain ⟨text, htext⟩ := ih (d.printLine line)
      refine ⟨line ++ "\n" ++ text, ?_⟩
      rw [← print_print]
      exact htext

theorem print_history (d : Debugger) (text : RawText)
    (history : Array (RawText × List RawText)) :
    ({ d with history } : Debugger).print text = { d.print text with history } := by
  obtain ⟨machine, keyboard, _ | _, _⟩ := d <;> rfl

theorem alike_print (d : Debugger) (text : RawText) : d.machine.Alike (d.print text).machine := by
  obtain ⟨machine, keyboard, _ | _, history⟩ := d
  · exact .refl machine
  · exact ⟨⟨rfl, rfl, rfl, rfl, rfl⟩, rfl, rfl, rfl⟩

theorem machine_print_of_own (hown : d.screen ≠ .ofMachine) (text : RawText) :
    (d.print text).machine = d.machine := by
  obtain ⟨machine, keyboard, _ | _, history⟩ := d
  · rfl
  · exact absurd rfl hown

@[simp] theorem keyboard_print (d : Debugger) (text : RawText) :
    (d.print text).keyboard = d.keyboard := by
  obtain ⟨machine, keyboard, _ | _, history⟩ := d <;> rfl

theorem screen_print (d : Debugger) (text : RawText) :
    (d.print text).screen = .ofMachine ↔ d.screen = .ofMachine := by
  obtain ⟨machine, keyboard, _ | _, history⟩ := d <;> simp [print]

/-! ## What a line does -/

/-- A command has left the machine alone: all that it does is to print, and not even
that if it is refused. The one fault it can find is a program counter that is no address. -/
structure LeavesAlone (d : Debugger) (r : Debugger × Outcome) : Prop where
  printed : ∃ text history, r.1 = { d.print text with history }
  refused : ∀ error, r.2 = .failed (.command error) →
    r.1.machine = d.machine ∧ r.1.keyboard = d.keyboard ∧ r.1.screen = d.screen
  finished : r.2 ≠ .unfinished
  faulted : ∀ fault, r.2 = .failed (.fault fault) → ∃ pc, fault = .outOfBounds pc

theorem leavesAlone_refuse (d : Debugger) (error : CommandError) :
    d.LeavesAlone (d.refuse error) :=
  ⟨⟨"", d.history, by rw [print_empty]; rfl⟩, fun _ _ => ⟨rfl, rfl, rfl⟩, nofun, nofun⟩

theorem leavesAlone_print (text : RawText) {outcome : Outcome}
    (h : outcome = .continues ∨ outcome = .quits ∨
      ∃ pc, outcome = .failed (.fault (.outOfBounds pc))) :
    d.LeavesAlone (d.print text, outcome) := by
  refine ⟨⟨text, (d.print text).history, rfl⟩, ?_, ?_, ?_⟩ <;>
    rcases h with rfl | rfl | ⟨pc, rfl⟩ <;> simp

/-- What enters the history does not matter. -/
theorem LeavesAlone.remember {r : Debugger × Outcome} {history : Array (RawText × List RawText)}
    (h : LeavesAlone { d with history } r) : d.LeavesAlone r := by
  obtain ⟨⟨text, history', hprinted⟩, hrefused, hfinished, hfaulted⟩ := h
  refine ⟨⟨text, history', ?_⟩, hrefused, hfinished, hfaulted⟩
  rw [hprinted, print_history]

theorem leavesAlone_dump (d : Debugger) (arguments : List RawText) :
    d.LeavesAlone (d.dump arguments) := by
  rw [dump.eq_def]
  split
  · split
    · exact d.leavesAlone_refuse _
    · split
      · exact d.leavesAlone_refuse _
      · obtain ⟨text, htext⟩ := d.printLines_eq (d.machine.memory.dump _)
        rw [htext]
        exact leavesAlone_print text (.inl rfl)
  · exact d.leavesAlone_refuse _

theorem leavesAlone_status (d : Debugger) (arguments : List RawText) :
    d.LeavesAlone (d.status arguments) := by
  rw [status]
  split
  · exact d.leavesAlone_refuse _
  · obtain ⟨text, htext⟩ := d.printLines_eq (registerLines d.machine)
    dsimp only
    rw [htext, current]
    split
    · rename_i fault hfault
      split at hfault
      · cases hfault
      · cases hfault
        exact leavesAlone_print text (.inr (.inr ⟨_, rfl⟩))
    · rename_i i _
      obtain ⟨text', htext'⟩ := (d.print text).printLines_eq
        (s!"current instruction: {i.text}" ::
          (jumpChain d.machine.memory Memory.size [d.machine.registers.pc] i).map linkLine)
      rw [htext', print_print]
      exact leavesAlone_print _ (.inl rfl)

/-- How a command ends that has run the machine: with the fault of the run, or with a
message. -/
def reported (d : Debugger) (r : Run) (message : String) : Debugger × Outcome :=
  match r.fault with
  | some fault => ({ d with machine := r.machine }, .failed (.fault fault))
  | none => (({ d with machine := r.machine } : Debugger).printLine message, .continues)

/-- What `step` says behind a run of at most `n` steps. -/
def stepMessage (n : Nat) (r : Run) : String :=
  if r.machine.halted then s!"halted after {r.steps} step(s)" else s!"executed {n} step(s)"

/-- What `run` says behind a run to the halt, whose last step it does not count. -/
def runMessage (r : Run) : String := s!"machine halted after {r.steps - 1} step(s)"

/-- **How a line is obeyed** that makes a demand: by the runs of the machine itself. -/
inductive Obeyed (bound : Nat) (d : Debugger) : Demand → Debugger × Outcome → Prop
  | idle {wanted : Demand} {r : Debugger × Outcome}
      (h : wanted = .nothing ∨ d.machine.halted = true) (hleaves : d.LeavesAlone r) :
      Obeyed bound d wanted r
  | step {n : Nat} {history : Array (RawText × List RawText)} (hrun : d.machine.halted = false) :
      Obeyed bound d (.atMost n)
        (reported { d with history } (d.machine.run n) (stepMessage n (d.machine.run n)))
  | run {r : Run} {history : Array (RawText × List RawText)} (hrun : d.machine.halted = false)
      (hr : d.machine.runToHalt bound = some r) :
      Obeyed bound d .toHalt (reported { d with history } r (runMessage r))
  | unfinished {history : Array (RawText × List RawText)} (hrun : d.machine.halted = false)
      (hnone : d.machine.runToHalt bound = none) :
      Obeyed bound d .toHalt ({ d with history }, .unfinished)

/-- What enters the history does not matter. -/
theorem Obeyed.remember {bound : Nat} {r : Debugger × Outcome}
    (history : Array (RawText × List RawText)) (h : Obeyed bound { d with history } wanted r) :
    Obeyed bound d wanted r := by
  cases h with
  | idle h hleaves => exact .idle h hleaves.remember
  | step hrun => exact .step hrun
  | run hrun hr => exact .run hrun hr
  | unfinished hrun hnone => exact .unfinished hrun hnone

theorem obeyed_run (bound : Nat) (d : Debugger) (arguments : List RawText) :
    Obeyed bound d (runDemand arguments) (d.run bound arguments) := by
  cases arguments with
  | cons argument arguments => exact .idle (.inl rfl) (d.leavesAlone_refuse _)
  | nil =>
      by_cases hrun : d.machine.halted = false
      · have hresult : (d.machine.runToHalt bound = none ∧ d.run bound [] = (d, .unfinished)) ∨
            ∃ r, d.machine.runToHalt bound = some r ∧
              d.run bound [] = d.reported r (runMessage r) := by
          rw [run, if_neg (by decide), if_neg (by simp [hrun]), untilHalt_eq 0 bound hrun,
            runToHalt, Machine.run]
          obtain ⟨machine, steps, _ | fault⟩ := runFrom 0 bound d.machine
          · by_cases hhalted : machine.halted = true
            · simp only [hhalted, Option.isSome_none, Bool.false_or, if_true]
              exact .inr ⟨_, rfl, rfl⟩
            · simp only [hhalted, Option.isSome_none, Bool.false_or]
              exact .inl ⟨rfl, rfl⟩
          · exact .inr ⟨_, rfl, rfl⟩
        rcases hresult with ⟨hnone, heq⟩ | ⟨r, hr, heq⟩
        · rw [heq]
          exact .unfinished hrun hnone
        · rw [heq]
          exact .run hrun hr
      · have hhalted : d.machine.halted = true := by simpa using hrun
        rw [run, if_neg (by decide), if_pos hhalted]
        exact .idle (.inr hhalted) (d.leavesAlone_refuse _)

theorem stepDemand_eq (arguments : List RawText) :
    stepDemand arguments =
      match stepCount arguments with
      | .ok n => .atMost n
      | .error _ => .nothing := by
  match arguments with
  | [] => rfl
  | [count] =>
      rw [stepDemand, stepCount]
      cases RawText.count? count <;> rfl
  | _ :: _ :: _ => rfl

theorem obeyed_step (bound : Nat) (d : Debugger) (arguments : List RawText) :
    Obeyed bound d (stepDemand arguments) (d.step arguments) := by
  rw [stepDemand_eq]
  cases hcount : stepCount arguments with
  | error error =>
      rw [step, hcount]
      exact .idle (.inl rfl) (d.leavesAlone_refuse error)
  | ok n =>
      by_cases hrun : d.machine.halted = false
      · have hresult : d.step arguments =
            d.reported (d.machine.run n) (stepMessage n (d.machine.run n)) := by
          rw [step, hcount]
          dsimp only
          rw [if_neg (by simp [hrun]), stepping_eq 0 n hrun, Machine.run]
          obtain ⟨machine, steps, _ | fault⟩ := runFrom 0 n d.machine
          · by_cases hhalted : machine.halted = true
            · simp only [reported, stepMessage, hhalted, if_true]
            · simp only [reported, stepMessage, hhalted, Bool.false_eq_true, if_false]
          · rfl
        rw [hresult]
        exact .step hrun
      · have hhalted : d.machine.halted = true := by simpa using hrun
        rw [step, hcount]
        dsimp only
        rw [if_pos hhalted]
        exact .idle (.inr hhalted) (d.leavesAlone_refuse _)

theorem Command.eq_name_of_ofName? {word : RawText} {c : Command} (h : ofName? word = some c) :
    word = c.name := by
  have hname := List.find?_some h
  exact (beq_iff_eq.mp hname).symm

/-- **Every line is obeyed.** -/
theorem obeyed (bound : Nat) (d : Debugger) (line : RawText) :
    Obeyed bound d (demand line) (d.executeLine bound line) := by
  rw [executeLine]
  cases hsplit : ShellWords.split line with
  | error error =>
      have hdemand : demand line = .nothing := by rw [demand, hsplit]
      exact .idle (.inl hdemand) (d.leavesAlone_refuse _)
  | ok words =>
      cases words with
      | nil =>
          have hdemand : demand line = .nothing := by rw [demand, hsplit]
          have hleaves := leavesAlone_print (d := d) "" (.inl rfl)
          rw [print_empty] at hleaves
          exact .idle (.inl hdemand) hleaves
      | cons word arguments =>
          have hdemand : demand line =
              if word = "step" then stepDemand arguments
              else if word = "run" then runDemand arguments
              else .nothing := by
            rw [demand, hsplit]
          dsimp only
          rw [hdemand, execute]
          cases hcommand : Command.ofName? word with
          | none =>
              have hother (c : Command) : word ≠ c.name := by
                intro hword
                rw [hword, Command.ofName?_name] at hcommand
                cases hcommand
              have hstep : word ≠ "step" := hother .step
              have hrun : word ≠ "run" := hother .run
              rw [if_neg hstep, if_neg hrun]
              exact .idle (.inl rfl) (d.leavesAlone_refuse _)
          | some command =>
              obtain rfl := Command.eq_name_of_ofName? hcommand
              refine Obeyed.remember (d.history.push (command.name, arguments)) ?_
              generalize ({ d with history := d.history.push _ } : Debugger) = d'
              cases command with
              | quit =>
                  have hleaves := leavesAlone_print (d := d') "" (.inr (.inl rfl))
                  rw [print_empty] at hleaves
                  exact .idle (.inl rfl) hleaves
              | help => exact .idle (.inl rfl) (leavesAlone_print _ (.inl rfl))
              | dump => exact .idle (.inl rfl) (d'.leavesAlone_dump arguments)
              | run => exact d'.obeyed_run bound arguments
              | status => exact .idle (.inl rfl) (d'.leavesAlone_status arguments)
              | step => exact d'.obeyed_step bound arguments

/-! ## The steps behind a line -/

theorem reported_outcome (d : Debugger) (r : Run) (message : String) :
    (d.reported r message).2 = r.fault.elim .continues fun fault => .failed (.fault fault) := by
  rw [reported]
  cases r.fault <;> rfl

theorem reported_print (d : Debugger) (r : Run) (message : String) :
    ∃ text, (d.reported r message).1 = ({ d with machine := r.machine } : Debugger).print text := by
  rw [reported]
  cases r.fault with
  | none => exact ⟨message ++ "\n", rfl⟩
  | some fault => exact ⟨"", by rw [print_empty]⟩

/-- The second debugger has stepped the machine of the first; it has printed, but on a
screen of its own that is not to be seen in the machine. It has read no command. -/
structure Driven (d d' : Debugger) (n : Nat) : Prop where
  alike : (d.machine.steps n).Alike d'.machine
  own : d.screen ≠ .ofMachine → d'.machine = d.machine.steps n
  keyboard : d'.keyboard = d.keyboard
  screen : d'.screen = .ofMachine ↔ d.screen = .ofMachine

theorem Driven.of_print (text : RawText) (history : Array (RawText × List RawText)) {n : Nat}
    (h : d' = { ({ d with machine := d.machine.steps n } : Debugger).print text with history }) :
    d.Driven d' n := by
  let d₁ : Debugger := { d with machine := d.machine.steps n }
  subst h
  exact ⟨d₁.alike_print text, fun hown => machine_print_of_own (d := d₁) hown text,
    d₁.keyboard_print text, d₁.screen_print text⟩

theorem Driven.trans {d'' : Debugger} {n j : Nat} (h : d.Driven d' n) (h' : d'.Driven d'' j) :
    d.Driven d'' (n + j) := by
  refine ⟨?_, fun hown => ?_, h'.keyboard.trans h.keyboard, h'.screen.trans h.screen⟩
  · rw [steps_add]
    exact (h.alike.steps j).trans h'.alike
  · rw [h'.own (mt h.screen.mp hown), h.own hown, steps_add]

/-- **A line that comes to an end takes the steps that it asks for**, and prints. -/
theorem Obeyed.behind {bound : Nat} {r : Debugger × Outcome} (h : Obeyed bound d wanted r)
    (hfinished : r.2 ≠ .unfinished) :
    ∃ k text history, Takes d.machine wanted k ∧
      r.1 = { ({ d with machine := d.machine.steps k } : Debugger).print text with history } := by
  cases h with
  | idle h hleaves =>
      obtain ⟨text, history, hprinted⟩ := hleaves.printed
      refine ⟨0, text, history, ?_, hprinted⟩
      rcases h with rfl | hhalted
      · exact .nothing
      · exact .halted hhalted
  | @step n history hrun =>
      obtain ⟨k, htakes, hmachine⟩ := takes_run hrun n
      obtain ⟨text, htext⟩ := reported_print { d with history } (d.machine.run n)
        (stepMessage n (d.machine.run n))
      refine ⟨k, text, history, htakes, ?_⟩
      rw [htext, hmachine, ← print_history]
  | @run r history hrun hr =>
      obtain ⟨k, -, hfirst, hmachine⟩ := takes_runToHalt hrun hr
      obtain ⟨text, htext⟩ := reported_print { d with history } r (runMessage r)
      refine ⟨k + 1, text, history, .ran hrun hfirst, ?_⟩
      rw [htext, hmachine, ← print_history]
  | unfinished => exact absurd rfl hfinished

theorem Obeyed.driven {bound : Nat} {r : Debugger × Outcome} (h : Obeyed bound d wanted r)
    (hfinished : r.2 ≠ .unfinished) : ∃ k, Takes d.machine wanted k ∧ d.Driven r.1 k := by
  obtain ⟨k, text, history, htakes, heq⟩ := h.behind hfinished
  exact ⟨k, htakes, .of_print text history heq⟩

theorem Obeyed.unhalted {bound : Nat} {r : Debugger × Outcome} (h : Obeyed bound d wanted r) :
    r.2 ≠ .failed (.fault .halted) := by
  have hreported {d : Debugger} {r : Run} (message : String) (hfault : r.fault ≠ some .halted) :
      (d.reported r message).2 ≠ .failed (.fault .halted) := by
    rw [reported_outcome]
    cases hr : r.fault with
    | none => simp
    | some fault => simpa [hr] using hfault
  cases h with
  | idle _ hleaves =>
      intro heq
      obtain ⟨pc, hpc⟩ := hleaves.faulted _ heq
      cases hpc
  | step hrun => exact hreported _ (run_fault_ne_halted hrun _)
  | run hrun hr =>
      rw [runToHalt] at hr
      split at hr
      · cases hr
        exact hreported _ (run_fault_ne_halted hrun _)
      · cases hr
  | unfinished =>
      intro heq
      cases heq

theorem Obeyed.unfinished_iff {bound : Nat} {r : Debugger × Outcome}
    (h : Obeyed bound d wanted r) :
    r.2 = .unfinished ↔
      wanted = .toHalt ∧ d.machine.halted = false ∧ ∀ k < bound, ¬ d.machine.Stops k := by
  have hreported (d : Debugger) (r : Run) (message : String) :
      (d.reported r message).2 ≠ .unfinished := by
    rw [reported_outcome]
    cases r.fault <;> simp
  cases h with
  | idle h hleaves =>
      refine ⟨fun heq => absurd heq hleaves.finished, fun ⟨htoHalt, hrun, _⟩ => ?_⟩
      rcases h with rfl | hhalted
      · cases htoHalt
      · simp [hrun] at hhalted
  | step => exact ⟨fun heq => absurd heq (hreported _ _ _), nofun⟩
  | run hrun hr =>
      obtain ⟨k, hk, hfirst, -⟩ := takes_runToHalt hrun hr
      exact ⟨fun heq => absurd heq (hreported _ _ _),
        fun ⟨_, _, hstops⟩ => absurd hfirst.stops (hstops k hk)⟩
  | unfinished hrun hnone =>
      exact ⟨fun _ => ⟨rfl, hrun, not_stops_of_runToHalt hnone⟩, fun _ => rfl⟩

/-! ## Sequences of lines -/

/-- Carries out lines one after another, whatever each of them ends in, also behind one
that quits. There is no result if one of them needs more than `bound` steps. -/
def obey (bound : Nat) : Debugger → List RawText → Option Debugger
  | d, [] => some d
  | d, line :: lines =>
    if (d.executeLine bound line).2 = .unfinished then none
    else obey bound (d.executeLine bound line).1 lines

theorem obey_driven {bound : Nat} {lines : List RawText} (h : obey bound d lines = some d') :
    ∃ n, TakesAll d.machine lines n ∧ d.Driven d' n := by
  induction lines generalizing d with
  | nil =>
      cases h
      exact ⟨0, .nil, .refl _, fun _ => rfl, rfl, Iff.rfl⟩
  | cons line lines ih =>
      rw [obey] at h
      split at h
      · cases h
      · rename_i hfinished
        obtain ⟨k, htakes, hdriven⟩ := (d.obeyed bound line).driven hfinished
        obtain ⟨n, htakesAll, hdriven'⟩ := ih h
        -- on a shared screen the machine is the stepped one but for what is printed
        have hback : (d.executeLine bound line).1.machine.Alike (d.machine.steps k) :=
          hdriven.alike.symm
        exact ⟨k + n, .cons htakes (htakesAll.alike hback), hdriven.trans hdriven'⟩

/-- A bound suffices that is no less than the number of steps. -/
theorem obey_of_takesAll {bound : Nat} {lines : List RawText} {n : Nat}
    (h : TakesAll d.machine lines n) (hbound : n ≤ bound) : ∃ d', obey bound d lines = some d' := by
  induction lines generalizing d n with
  | nil => exact ⟨d, rfl⟩
  | cons line lines ih =>
      cases h with
      | @cons _ _ _ k n htakes htakesAll =>
          have hobeyed := d.obeyed bound line
          have hfinished : (d.executeLine bound line).2 ≠ .unfinished := by
            intro hunfinished
            obtain ⟨htoHalt, hrun, hstops⟩ := hobeyed.unfinished_iff.mp hunfinished
            rw [htoHalt] at htakes
            cases htakes with
            | halted hhalted => simp [hrun] at hhalted
            | ran _ hfirst => exact hstops _ (by omega) hfirst.stops
          obtain ⟨j, htakes', hdriven⟩ := hobeyed.driven hfinished
          obtain rfl := htakes.unique htakes'
          rw [obey, if_neg hfinished]
          exact ih (htakesAll.alike hdriven.alike) (by omega)

/-! ## Two lines in turn -/

/-- A line that asks a running machine for some steps is obeyed by a run. -/
theorem Obeyed.reported {bound n : Nat} {r : Debugger × Outcome}
    (h : Obeyed bound d (.atMost n) r) (hrun : d.machine.halted = false) :
    ∃ history, r = { d with history }.reported (d.machine.run n)
      (stepMessage n (d.machine.run n)) := by
  cases h with
  | idle h =>
      rcases h with hnothing | hhalted
      · cases hnothing
      · simp [hrun] at hhalted
  | @step _ history => exact ⟨history, rfl⟩

/-- The machine that goes on behind a line has not met a halt or a fault. -/
theorem Obeyed.not_stops {bound n : Nat} (h : Obeyed bound d (.atMost n) (d', .continues))
    (hrun : d.machine.halted = false) (hrunning : d'.machine.halted = false) :
    ∀ k < n, ¬ d.machine.Stops k := by
  obtain ⟨history, heq⟩ := h.reported hrun
  rw [Debugger.reported] at heq
  cases hfault : (d.machine.run n).fault with
  | some fault =>
      rw [hfault] at heq
      cases heq
  | none =>
      rw [hfault] at heq
      obtain rfl := (Prod.mk.inj heq).1
      exact not_stops_of_run hfault ((alike_print _ _).halted.symm.trans hrunning)

/-- **Two counts in turn take what their sum takes.** -/
theorem driven_together {bound a b : Nat} {line line' line'' : RawText}
    (hline : demand line = .atMost a) (hline' : demand line' = .atMost b)
    (hline'' : demand line'' = .atMost (a + b)) (hrun : d.machine.halted = false)
    (hfirst : d.executeLine bound line = (d', .continues)) (hrunning : d'.machine.halted = false) :
    ∃ n, d.Driven (d'.executeLine bound line').1 n ∧ d.Driven (d.executeLine bound line'').1 n := by
  have hobeyed := d.obeyed bound line
  have hobeyed' := d'.obeyed bound line'
  have hobeyed'' := d.obeyed bound line''
  rw [hline, hfirst] at hobeyed
  rw [hline'] at hobeyed'
  rw [hline''] at hobeyed''
  have hfinished {r : Debugger × Outcome} {d : Debugger} {n : Nat}
      (h : Obeyed bound d (.atMost n) r) : r.2 ≠ .unfinished := by
    intro hunfinished
    cases (h.unfinished_iff.mp hunfinished).1
  have hstops := hobeyed.not_stops hrun hrunning
  obtain ⟨i, htakes, hdriven⟩ := hobeyed.driven nofun
  obtain ⟨j, htakes', hdriven'⟩ := hobeyed'.driven (hfinished hobeyed')
  obtain ⟨n, htakes'', hdriven''⟩ := hobeyed''.driven (hfinished hobeyed'')
  obtain rfl : a = i := (Takes.executed hrun hstops).unique htakes
  have hsum := Takes.add hrun hstops (htakes'.alike hdriven.alike.symm)
  obtain rfl := hsum.unique htakes''
  exact ⟨a + j, hdriven.trans hdriven', hdriven''⟩

/-! ## A faithful driver -/

/-- What it is to drive a machine faithfully. -/
structure Faithful (d : Debugger) (bound : Nat) : Prop where
  /-- A line that asks for steps runs the machine and tells the number of the run, or its
  fault; any other leaves the machine alone. -/
  line : ∀ line, Obeyed bound d (demand line) (d.executeLine bound line)
  /-- It does not come out that a halted machine cannot be stepped. -/
  unhalted : ∀ line, (d.executeLine bound line).2 ≠ .failed (.fault .halted)
  /-- Nothing goes on beyond the bound but a run to the halt. -/
  unfinished : ∀ line, (d.executeLine bound line).2 = .unfinished ↔
    demand line = .toHalt ∧ d.machine.halted = false ∧ ∀ k < bound, ¬ d.machine.Stops k
  /-- Behind any lines the machine is the one that has taken the steps they ask for, none
  of them with the machine halted. -/
  sequence : ∀ lines d', obey bound d lines = some d' →
    ∃ n, TakesAll d.machine lines n ∧ (∀ i < n, (d.machine.steps i).halted = false) ∧
      d.Driven d' n
  /-- A bound suffices that is no less than the number of steps. -/
  complete : ∀ lines n, TakesAll d.machine lines n → n ≤ bound →
    ∃ d', obey bound d lines = some d'
  /-- Two counts in turn leave the machine that their sum leaves, if it runs on between
  them. -/
  together : ∀ a b line line' line'' d', demand line = .atMost a → demand line' = .atMost b →
    demand line'' = .atMost (a + b) → d.machine.halted = false →
    d.executeLine bound line = (d', .continues) → d'.machine.halted = false →
    ∃ n, d.Driven (d'.executeLine bound line').1 n ∧ d.Driven (d.executeLine bound line'').1 n

/-- **The debugger is a faithful driver of its machine**, whatever it is told. -/
theorem faithful (bound : Nat) (d : Debugger) : d.Faithful bound where
  line := d.obeyed bound
  unhalted line := (d.obeyed bound line).unhalted
  unfinished line := (d.obeyed bound line).unfinished_iff
  sequence lines d' h := by
    obtain ⟨n, htakes, hdriven⟩ := obey_driven h
    exact ⟨n, htakes, fun i hi => htakes.running hi, hdriven⟩
  complete _ _ := obey_of_takesAll
  together _ _ _ _ _ _ := driven_together

end IttyBitty.Debugger
