import IttyBitty.Assembly.Assembler
import IttyBitty.Debugger.Basic
import IttyBitty.Memory.Binary
import IttyBitty.Memory.HexListing
import IttyBitty.Proofs.Machine.Confinement

/-!
# What holds of every machine

A machine starts with clear registers around a memory that has been loaded, and
then steps, runs, is reset, gets other streams, has its memory written, or obeys
a debugger. Whatever is done and whatever faults come on the way, its registers
stay in range and its program keeps its length (`Reached.invariant`). A machine
that has halted waits for a reset.

Everything but a reset is related to the machine before it by `Onward`, which
is shown of single steps and of what a debugger prints and reads, and composed.
-/

namespace IttyBitty

/-! ## Loading -/

/-- The ways to load a program: as integers, as an assembled program, as a hex
listing or as a binary image. -/
inductive Load
  | words (values : List Int)
  | program (p : Assembly.Program)
  | listing (source : Source)
  | image (bytes : List UInt8)

namespace Load

/-- The memory that is loaded, if the program can be read and fits. -/
def memory? : Load → Option Memory
  | words values => (Memory.load values).toOption
  | program p => (Memory.loadWords p.words).toOption
  | listing source =>
    match source.decode with
    | .ok t => (HexListing.load t).toOption
    | .error _ => none
  | image bytes => (Binary.load bytes).toOption

/-- The number of words of the program; the word of an odd byte does not count. -/
def count : Load → Nat
  | words values => values.length
  | program p => p.words.length
  | listing source =>
    match source.decode with
    | .ok t => (HexListing.rows t).length
    | .error _ => 0
  | image bytes => bytes.length / 2

end Load

theorem Memory.length_loadWords {words : List Word} {memory : Memory}
    (h : loadWords words = .ok memory) : memory.length = words.length := by
  rw [loadWords] at h
  split at h
  · cases h
    rfl
  · cases h

theorem Memory.length_write {memory memory' : Memory} {a : Nat} {value : Int}
    (h : memory.write a value = .ok memory') : memory'.length = memory.length := by
  rw [write] at h
  split at h
  · cases h
    rfl
  · cases h

/-- The rows of a listing are its words. -/
theorem HexListing.length_wordsFrom {count : Nat} {done ws : List Word} {rows : List Text}
    (h : wordsFrom count done rows = .ok ws) : ws.length = done.length + rows.length := by
  induction rows generalizing count done with
  | nil =>
      cases h
      simp
  | cons row rest ih =>
      rw [wordsFrom] at h
      split at h
      · cases h
      · split at h
        · rw [ih h, List.length_cons, List.length_cons]
          omega
        · cases h

theorem HexListing.length_load {t : Text} {memory : Memory} (h : load t = .ok memory) :
    memory.length = (rows t).length := by
  change (words t >>= fun ws => (Memory.loadWords ws).mapError .memory) = .ok memory at h
  cases hws : words t with
  | error e =>
      rw [hws] at h
      cases h
  | ok ws =>
      rw [hws] at h
      change (Memory.loadWords ws).mapError _ = _ at h
      cases hload : Memory.loadWords ws with
      | error e =>
          rw [hload] at h
          cases h
      | ok loaded =>
          rw [hload] at h
          cases h
          rw [Memory.length_loadWords hload, length_wordsFrom hws, List.length_nil, Nat.zero_add]

theorem Binary.length_load {bytes : List UInt8} {memory : Memory}
    (h : load bytes = .ok memory) : memory.length = bytes.length / 2 := by
  rw [load] at h
  split at h
  · cases h
    rfl
  · cases h

/-- **The length of the memory is the number of words that were loaded.** -/
theorem Load.length_memory? {source : Load} {memory : Memory}
    (h : source.memory? = some memory) : memory.length = source.count := by
  have hok {ε : Type} {x : Except ε Memory} (hx : x.toOption = some memory) : x = .ok memory := by
    cases x with
    | error e => cases hx
    | ok loaded => rw [Option.some.inj hx]
  cases source with
  | words values =>
      rw [Memory.length_loadWords (hok h), List.length_map]
      rfl
  | program p => exact Memory.length_loadWords (hok h)
  | listing source =>
      rw [memory?] at h
      rw [count]
      cases hdecode : source.decode with
      | error e =>
          rw [hdecode] at h
          cases h
      | ok t =>
          rw [hdecode] at h
          exact HexListing.length_load (hok h)
  | image bytes => exact Binary.length_load (hok h)

/-! ## What is left by anything but a reset -/

namespace Machine

variable {m m' m'' : Machine}

/-- Registers in range stay in range, the program keeps its length, and a halted
machine stays as it is but for its memory, its streams and its switches. -/
structure Onward (m m' : Machine) : Prop where
  inRange : m.registers.InRange → m'.registers.InRange
  length : m'.memory.length = m.memory.length
  frozen : m.halted = true → m'.halted = true ∧ m'.registers = m.registers

theorem Onward.refl (m : Machine) : m.Onward m := ⟨id, rfl, fun h => ⟨h, rfl⟩⟩

theorem Onward.trans (h : m.Onward m') (h' : m'.Onward m'') : m.Onward m'' where
  inRange hm := h'.inRange (h.inRange hm)
  length := h'.length.trans h.length
  frozen hm :=
    have hm' := h.frozen hm
    have hm'' := h'.frozen hm'.1
    ⟨hm''.1, hm''.2.trans hm'.2⟩

/-- Other streams and switches, and other words in a memory of the same length. -/
theorem Onward.of_registers (hregisters : m'.registers = m.registers)
    (hhalted : m'.halted = m.halted) (hlength : m'.memory.length = m.memory.length) :
    m.Onward m' where
  inRange hm := by rwa [hregisters]
  length := hlength
  frozen hm := ⟨hhalted.trans hm, hregisters⟩

theorem onward_step (m : Machine) : m.Onward m.step.1 where
  inRange := inRange_step
  length := by
    rcases m.step_cases with ⟨-, hstep⟩ | ⟨-, -, hstep⟩ | ⟨-, hpc, hstep⟩ <;> rw [hstep]
    exact (keeps_execute _ _).length
  frozen hm := by
    rw [step, if_pos hm]
    exact ⟨hm, rfl⟩

theorem onward_runFrom (steps limit : Nat) (m : Machine) :
    m.Onward (runFrom steps limit m).machine := by
  induction limit generalizing steps m with
  | zero => exact .refl m
  | succ limit ih =>
      have hstep := m.onward_step
      rw [runFrom]
      rcases h : m.step with ⟨m', _ | fault⟩ <;> rw [h] at hstep
      · dsimp only
        split
        · exact hstep
        · exact hstep.trans (ih _ m')
      · exact hstep

theorem onward_runToHalt {bound : Nat} {r : Run} (h : m.runToHalt bound = some r) :
    m.Onward r.machine := by
  rw [runToHalt] at h
  split at h
  · cases h
    exact onward_runFrom 0 bound m
  · cases h

end Machine

/-! ## The debugger -/

namespace Debugger

open Machine

variable (d : Debugger)

theorem onward_print (text : RawText) : d.machine.Onward (d.print text).machine := by
  rw [print]
  split
  · exact .refl _
  · exact .of_registers rfl rfl rfl

theorem onward_printLines (lines : List String) :
    d.machine.Onward (d.printLines lines).machine := by
  induction lines generalizing d with
  | nil => exact .refl _
  | cons line lines ih => exact (d.onward_print _).trans (ih (d.printLine line))

theorem onward_readLine : d.machine.Onward d.readLine.2.machine := by
  rw [readLine]
  split
  · exact .refl _
  · exact .of_registers rfl rfl rfl

theorem onward_dump (arguments : List RawText) : d.machine.Onward (d.dump arguments).1.machine := by
  rw [dump.eq_def]
  split
  · split
    · exact .refl _
    · split
      · exact .refl _
      · exact d.onward_printLines _
  · exact .refl _

theorem onward_untilHalt {done bound : Nat} {m m' : Machine} {result : Except Fault Nat}
    (h : untilHalt done bound m = some (m', result)) : m.Onward m' := by
  induction bound generalizing done m with
  | zero => cases h
  | succ bound ih =>
      have hstep := m.onward_step
      rw [untilHalt] at h
      rcases hm : m.step with ⟨m₁, _ | fault⟩ <;> rw [hm] at h hstep
      · dsimp only at h
        split at h
        · cases h
          exact hstep
        · exact hstep.trans (ih h)
      · cases h
        exact hstep

theorem onward_run (bound : Nat) (arguments : List RawText) :
    d.machine.Onward (d.run bound arguments).1.machine := by
  rw [run]
  split
  · exact .refl _
  · split
    · exact .refl _
    · rcases hrun : untilHalt 0 bound d.machine with _ | ⟨machine, _ | steps⟩
      · exact .refl _
      · exact onward_untilHalt hrun
      · exact (onward_untilHalt hrun).trans (onward_print { d with machine } _)

theorem onward_stepping (done left : Nat) (m : Machine) :
    m.Onward (stepping done left m).1 := by
  induction left generalizing done m with
  | zero => exact .refl m
  | succ left ih =>
      have hstep := m.onward_step
      rw [stepping]
      rcases hm : m.step with ⟨m₁, _ | fault⟩ <;> rw [hm] at hstep
      · dsimp only
        split
        · exact hstep
        · exact hstep.trans (ih _ m₁)
      · exact hstep

theorem onward_step (arguments : List RawText) : d.machine.Onward (d.step arguments).1.machine := by
  rw [step]
  split
  · exact .refl _
  · split
    · exact .refl _
    · rename_i n _ _
      have hsteps := onward_stepping 0 n d.machine
      rcases hn : stepping 0 n d.machine with ⟨machine, _ | _ | k⟩ <;> rw [hn] at hsteps
      · exact hsteps
      · exact hsteps.trans (onward_print { d with machine } _)
      · exact hsteps.trans (onward_print { d with machine } _)

theorem onward_status (arguments : List RawText) :
    d.machine.Onward (d.status arguments).1.machine := by
  rw [status]
  split
  · exact .refl _
  · have hlines := d.onward_printLines (registerLines d.machine)
    dsimp only
    split
    · exact hlines
    · exact hlines.trans (onward_printLines _ _)

theorem onward_execute (bound : Nat) (word : RawText) (arguments : List RawText) :
    d.machine.Onward (d.execute bound word arguments).1.machine := by
  rw [execute]
  split
  · exact .refl _
  · rename_i command _
    let d' := { d with history := d.history.push (word, arguments) }
    show d'.machine.Onward (d'.perform bound arguments command).1.machine
    cases command with
    | quit => exact .refl _
    | help => exact d'.onward_print _
    | dump => exact d'.onward_dump arguments
    | run => exact d'.onward_run bound arguments
    | status => exact d'.onward_status arguments
    | step => exact d'.onward_step arguments

theorem onward_executeLine (bound : Nat) (line : RawText) :
    d.machine.Onward (d.executeLine bound line).1.machine := by
  rw [executeLine]
  split
  · exact .refl _
  · exact .refl _
  · exact d.onward_execute bound _ _

theorem onward_session (prompt : RawText) (bound lines : Nat) :
    d.machine.Onward (d.session prompt bound lines).1.machine := by
  induction lines generalizing d with
  | zero => exact .refl _
  | succ lines ih =>
      have hread := (d.onward_print prompt).trans (d.print prompt).onward_readLine
      rw [session]
      rcases h : (d.print prompt).readLine with ⟨reading, d'⟩
      rw [h] at hread
      cases reading with
      | failed => exact hread
      | ended => exact hread.trans (d'.onward_print _)
      | line line =>
          have hline := hread.trans (d'.onward_executeLine bound line)
          rcases hexecute : d'.executeLine bound line with ⟨d'', outcome⟩
          rw [hexecute] at hline
          simp only [hexecute]
          cases outcome with
          | continues => exact hline.trans (ih d'')
          | quits => exact hline
          | failed error =>
              simp only
              cases error.escape? with
              | some fault => exact hline
              | none => exact hline.trans ((d''.onward_print _).trans (ih _))
          | unfinished => exact hline

end Debugger

/-! ## Machines that can be reached -/

/-- What can be done to a machine from outside. A run has a greatest number of
steps, or goes on to the halt; a debugger obeys one command, one command line, or
all the lines of its keyboard. -/
inductive Action
  | step
  | run (limit : Nat)
  | runToHalt (bound : Nat)
  | reset
  | setInput (input : Input)
  | setOutput (output : Output) (prompting : Bool)
  | setTracing (tracing : Bool)
  | write (a : Nat) (value : Int)
  | command (keyboard : Keyboard) (screen : Screen) (bound : Nat) (word : RawText)
    (arguments : List RawText)
  | commandLine (keyboard : Keyboard) (screen : Screen) (bound : Nat) (line : RawText)
  | shell (keyboard : Keyboard) (screen : Screen) (prompt : RawText) (bound : Nat)
  deriving DecidableEq

namespace Machine

variable {m : Machine} {source : Load}

/-- The machine that an action leaves, whether it ends in a fault or not. A run to
the halt that goes on beyond its bound is not counted as done. -/
def perform (m : Machine) : Action → Machine
  | .step => m.step.1
  | .run limit => (m.run limit).machine
  | .runToHalt bound =>
    match m.runToHalt bound with
    | some r => r.machine
    | none => m
  | .reset => m.reset
  | .setInput input => { m with input }
  | .setOutput output prompting => { m with output, prompting }
  | .setTracing tracing => { m with tracing }
  | .write a value =>
    match m.memory.write a value with
    | .ok memory => { m with memory }
    | .error _ => m
  | .command keyboard screen bound word arguments =>
    (Debugger.execute bound { machine := m, keyboard, screen } word arguments).1.machine
  | .commandLine keyboard screen bound line =>
    (Debugger.executeLine bound { machine := m, keyboard, screen } line).1.machine
  | .shell keyboard screen prompt bound =>
    (Debugger.shell prompt bound { machine := m, keyboard, screen }).1.machine

/-- The machine that some actions leave, one after another. -/
def after (m : Machine) (actions : List Action) : Machine := actions.foldl perform m

/-- **Every action but a reset goes onward.** -/
theorem onward_perform (m : Machine) {action : Action} (h : action ≠ .reset) :
    m.Onward (m.perform action) := by
  cases action with
  | step => exact m.onward_step
  | run limit => exact onward_runFrom 0 limit m
  | runToHalt bound =>
      rw [perform]
      cases hrun : m.runToHalt bound with
      | none => exact .refl m
      | some r => exact onward_runToHalt hrun
  | reset => exact absurd rfl h
  | setInput input => exact .of_registers rfl rfl rfl
  | setOutput output prompting => exact .of_registers rfl rfl rfl
  | setTracing tracing => exact .of_registers rfl rfl rfl
  | write a value =>
      rw [perform]
      cases hwrite : m.memory.write a value with
      | error e => exact .refl m
      | ok memory => exact .of_registers rfl rfl (Memory.length_write hwrite)
  | command keyboard screen bound word arguments =>
      exact Debugger.onward_execute { machine := m, keyboard, screen } bound word arguments
  | commandLine keyboard screen bound line =>
      exact Debugger.onward_executeLine { machine := m, keyboard, screen } bound line
  | shell keyboard screen prompt bound =>
      exact Debugger.onward_session { machine := m, keyboard, screen } prompt bound bound

theorem onward_after (m : Machine) {actions : List Action} (h : .reset ∉ actions) :
    m.Onward (m.after actions) := by
  induction actions generalizing m with
  | nil => exact .refl m
  | cons action actions ih =>
      rw [List.mem_cons, not_or] at h
      exact (m.onward_perform (Ne.symm h.1)).trans (ih (m.perform action) h.2)

/-- A machine that has been built around what a load gives, with any streams, and
to which any number of things have been done. -/
inductive Reached (source : Load) : Machine → Prop
  | built {memory : Memory} (input : Input) (output : Output)
      (hload : source.memory? = some memory) : Reached source { memory, input, output }
  | acted {m : Machine} (action : Action) (h : Reached source m) :
      Reached source (m.perform action)

theorem Reached.after (h : m.Reached source) (actions : List Action) :
    (m.after actions).Reached source := by
  induction actions generalizing m with
  | nil => exact h
  | cons action actions ih => exact ih (h.acted action)

theorem Reached.inRange (h : m.Reached source) : m.registers.InRange := by
  induction h with
  | built => exact .clear
  | @acted m action _ ih =>
      by_cases hreset : action = .reset
      · subst hreset
        exact .clear
      · exact (m.onward_perform hreset).inRange ih

theorem Reached.length (h : m.Reached source) : m.memory.length = source.count := by
  induction h with
  | built input output hload => exact Load.length_memory? hload
  | @acted m action _ ih =>
      by_cases hreset : action = .reset
      · subst hreset
        exact ih
      · exact (m.onward_perform hreset).length.trans ih

/-- What holds of a machine that has been loaded with a program of some length,
whatever has been done to it. -/
structure Invariant (length : Nat) (m : Machine) : Prop where
  size : m.memory.words.length = 4096
  words : ∀ w ∈ m.memory.words, 0 ≤ w.value ∧ w.value ≤ 65535
  registers : m.registers.InRange
  loaded : m.memory.length = length ∧ length ≤ 4096
  /-- Once halted it stays so, with the same registers, until it is reset. -/
  frozen : m.halted = true → ∀ actions, .reset ∉ actions →
    (m.after actions).halted = true ∧ (m.after actions).registers = m.registers
  /-- A step touches only places inside the memory, -/
  inside : ∀ a ∈ m.touched, 0 ≤ a ∧ a < 4096
  /-- and it neither reads nor changes the word at any other. -/
  apart : ∀ (a : Address) (w : Word), (a.val : Int) ∉ m.touched →
    (m.poke a w).step = m.step.map (poke a w) id
  /-- A word is printed as four digits. -/
  printed : ∀ i, m.halted = false → m.current = .ok i → i.op = .printH → m.output.writes = true →
    ∃ digits : Text, digits.length = 4 ∧ (∀ c ∈ digits, Hex.isDigit c = true) ∧
      (Hex.number digits : Int) = m.registers.acc ∧ m.step.2 = none ∧
      m.step.1.output = m.output.append (String.ofList (digits ++ ['\n']))

/-- **The invariant holds of every machine that can be reached.** -/
theorem Reached.invariant (h : m.Reached source) : m.Invariant source.count where
  size := m.memory.length_words
  words w _ := w.value_range
  registers := h.inRange
  loaded := ⟨h.length, h.length ▸ m.memory.length_le⟩
  frozen hhalted _ hactions := (m.onward_after hactions).frozen hhalted
  inside _ := mem_touched
  apart _ w := step_poke w
  printed i hrun hcurrent hop hwrites := by
    obtain ⟨digits, hprinted, hlength, hdigits, hnumber⟩ := printedWord_digits h.inRange.acc
    refine ⟨digits, hlength, hdigits, hnumber, ?_⟩
    rw [current] at hcurrent
    split at hcurrent
    · rename_i hpc
      obtain rfl := Except.ok.inj hcurrent
      rw [step_of_running hrun hpc, execute_printH hop, write_of_writes (by exact hwrites)]
      exact ⟨rfl, congrArg (fun text : String => m.output.append text) hprinted⟩
    · cases hcurrent

/-- Integers out of range are loaded and written, and the program prints and halts. -/
theorem invariant_printing :
    let m := after { memory := Memory.ofWords ([0x1800, 0, -1].map Word.ofInt) (by decide) }
      [.write 3 70000, .setOutput {} false, .run 5]
    m.Reached (.words [0x1800, 0, -1]) ∧ m.Invariant 3 ∧ m.halted = true ∧
      m.output.text = "0000\n" := by
  intro m
  have hreached : m.Reached (.words [0x1800, 0, -1]) := (Reached.built _ _ rfl).after _
  exact ⟨hreached, hreached.invariant, rfl, rfl⟩

end Machine

end IttyBitty
