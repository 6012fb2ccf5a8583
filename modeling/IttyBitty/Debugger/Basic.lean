import IttyBitty.Debugger.Command
import IttyBitty.Machine.Run
import IttyBitty.Memory.Dump
import IttyBitty.Text.Count
import IttyBitty.Text.Quoted

/-!
# The debugger

The debugger steps a machine and shows its state. Commands come from a keyboard and answers go to a
screen. Each of the two is either the debugger's own or a stream of the machine itself: on a shared
keyboard, commands and the answers to the program's reads come from one input in turn, and on a
shared screen everything printed goes to one output.

Commands step the machine in loops of their own, which count the halting step in different ways.
A command that runs to the halt has no bound of its own; like `Machine.runToHalt` it is given one,
and says so if that did not suffice.
-/

namespace IttyBitty

/-- Where commands come from: an input of the debugger's own, or that of the machine. -/
inductive Keyboard
  | own (commands : Input)
  | ofMachine
  deriving DecidableEq, Repr

/-- Where answers go: an output of the debugger's own, with what has been printed, or that of the
machine. -/
inductive Screen
  | own (printed : RawText)
  | ofMachine
  deriving DecidableEq, Repr

/-- A machine with a keyboard and a screen, and the commands it was given, words as they were
typed. -/
structure Debugger where
  machine : Machine
  keyboard : Keyboard := .own (.ofText [])
  screen : Screen := .own []
  history : Array (RawText × List RawText) := #[]

namespace Debugger

/-- How a command ended: it asks for another, it ends the session, it failed, or the bound was too
small for it. -/
inductive Outcome
  | continues
  | quits
  | failed (error : Error)
  | unfinished
  deriving DecidableEq, Repr

/-- Prints a text on the screen. -/
def print (d : Debugger) (text : RawText) : Debugger :=
  match d.screen with
  | .own printed => { d with screen := .own (printed ++ text) }
  | .ofMachine => { d with machine := { d.machine with output := d.machine.output.append text } }

/-- Prints a line on the screen. -/
def printLine (d : Debugger) (line : RawText) : Debugger := d.print (line ++ "\n")

/-- Prints lines on the screen. -/
def printLines (d : Debugger) (lines : List String) : Debugger :=
  lines.foldl (fun d (line : String) => d.printLine line) d

/-- Reads a line from the keyboard. -/
def readLine (d : Debugger) : Reading × Debugger :=
  match d.keyboard with
  | .own commands =>
    let (reading, rest) := commands.readLine
    (reading, { d with keyboard := .own rest })
  | .ofMachine =>
    let (reading, rest) := d.machine.input.readLine
    (reading, { d with machine := { d.machine with input := rest } })

/-! ## Commands -/

/-- A command that was not carried out. -/
def refuse (d : Debugger) (error : CommandError) : Debugger × Outcome :=
  (d, .failed (.command error))

/-- Shows the first words of the memory. -/
def dump (d : Debugger) : List RawText → Debugger × Outcome
  | [amount] =>
    match RawText.count? amount with
    | none => d.refuse .invalidAmount
    | some n =>
      if 4096 < n then d.refuse .amountTooLarge
      else (d.printLines (d.machine.memory.dump n), .continues)
  | _ => d.refuse .missingAmount

/-- Steps a machine until it halts, behind `done` steps that have not halted it: the machine, and
the number of steps before the one that halted it or the fault of one. There is no result if that
takes more than `bound` steps. -/
def untilHalt (done : Nat) : (bound : Nat) → Machine → Option (Machine × Except Fault Nat)
  | 0, _ => none
  | bound + 1, m =>
    match m.step with
    | (m, some fault) => some (m, .error fault)
    | (m, none) => if m.halted then some (m, .ok done) else untilHalt (done + 1) bound m

/-- Runs to the halt. The step that halts is not in the number that is printed. -/
def run (bound : Nat) (d : Debugger) (arguments : List RawText) : Debugger × Outcome :=
  if !arguments.isEmpty then d.refuse .unexpectedArguments
  else if d.machine.halted then d.refuse .halted
  else
    match untilHalt 0 bound d.machine with
    | none => (d, .unfinished)
    | some (machine, result) =>
      let d := { d with machine }
      match result with
      | .error fault => (d, .failed (.fault fault))
      | .ok steps => (d.printLine s!"machine halted after {steps} step(s)", .continues)

/-- The number of steps that the arguments of `step` ask for. -/
def stepCount : List RawText → Except CommandError Nat
  | [] => .ok 1
  | [n] =>
    match RawText.count? n with
    | some n => .ok n
    | none => .error .invalidSteps
  | _ => .error .tooManyArguments

/-- Steps a machine as many times as are left, behind `done` steps, or until it halts: the machine,
and the number of the step that halted it, if any did, or the fault of one. -/
def stepping (done : Nat) : (left : Nat) → Machine → Machine × Except Fault (Option Nat)
  | 0, m => (m, .ok none)
  | left + 1, m =>
    match m.step with
    | (m, some fault) => (m, .error fault)
    | (m, none) => if m.halted then (m, .ok (some (done + 1))) else stepping (done + 1) left m

/-- Executes some instructions. The step that halts is in the number that is printed. -/
def step (d : Debugger) (arguments : List RawText) : Debugger × Outcome :=
  match stepCount arguments with
  | .error error => d.refuse error
  | .ok n =>
    if d.machine.halted then d.refuse .halted
    else
      let (machine, result) := stepping 0 n d.machine
      let d := { d with machine }
      match result with
      | .error fault => (d, .failed (.fault fault))
      | .ok (some k) => (d.printLine s!"halted after {k} step(s)", .continues)
      | .ok none => (d.printLine s!"executed {n} step(s)", .continues)

/-- The lines on the registers of a machine. -/
def registerLines (m : Machine) : List String :=
  [s!"acc:    {m.registers.signedAcc}", s!"ir:     {m.registers.ir}", s!"pc:     {m.registers.pc}",
    s!"halted? {m.halted}"]

/-- The instructions that jumps lead to from an instruction, with their addresses, up to the first
that does not jump or jumps to an address that has been seen. Every link adds an address to those
seen, so there are fewer links than addresses. -/
def jumpChain (memory : Memory) : (links : Nat) → (seen : List Nat) → Instruction →
    List (Address × Instruction)
  | 0, _, _ => []
  | links + 1, seen, i =>
    if i.op.isJump then
      let target := Address.ofInt i.operand
      if seen.contains target.val then []
      else
        let next := Instruction.decode (memory.fetch target)
        (target, next) :: jumpChain memory links (target.val :: seen) next
    else []

/-- The line of a link of the jump chain. -/
def linkLine (link : Address × Instruction) : String :=
  s!"--> (@ {String.ofList (Hex.lower 4 link.1.val)}) {link.2.text}"

/-- Shows the registers, the current instruction and where its jumps lead. -/
def status (d : Debugger) (arguments : List RawText) : Debugger × Outcome :=
  if !arguments.isEmpty then d.refuse .unexpectedArguments
  else
    let m := d.machine
    let d := d.printLines (registerLines m)
    match m.current with
    | .error fault => (d, .failed (.fault fault))
    | .ok i =>
      let links := jumpChain m.memory Memory.size [m.registers.pc] i
      (d.printLines (s!"current instruction: {i.text}" :: links.map linkLine), .continues)

/-- Carries out a command. -/
def perform (bound : Nat) (d : Debugger) (arguments : List RawText) : Command → Debugger × Outcome
  | .quit => (d, .quits)
  | .help => (d.printLine Command.helpText, .continues)
  | .dump => d.dump arguments
  | .run => d.run bound arguments
  | .status => d.status arguments
  | .step => d.step arguments

/-- Carries out the command of a name, which enters the history. -/
def execute (bound : Nat) (d : Debugger) (word : RawText) (arguments : List RawText) :
    Debugger × Outcome :=
  match Command.ofName? word with
  | none => d.refuse (.unknownCommand word)
  | some command =>
    let d := { d with history := d.history.push (word, arguments) }
    d.perform bound arguments command

/-- Carries out a command line; a line of no words asks for nothing. -/
def executeLine (bound : Nat) (d : Debugger) (line : RawText) : Debugger × Outcome :=
  match ShellWords.split line with
  | .error error => d.refuse (.malformedLine error)
  | .ok [] => (d, .continues)
  | .ok (word :: arguments) => d.execute bound word arguments

/-! ## The shell -/

/-- The prompt of the shell. -/
def shellPrompt : String := "(ibcm) "

/-- How a shell session ended: by a command, at the end of the input, at a line that could not be
read, with a fault that is not the machine's own, or because the bound was too small. -/
inductive SessionEnd
  | quit
  | inputEnded
  | inputFailed
  | escaped (fault : Fault)
  | unfinished
  deriving DecidableEq, Repr

/-- Carries out at most `lines` lines of commands, printing what errors they have. A fault that is
not the machine's own ends the session where it stands. -/
def session (prompt : RawText) (bound : Nat) : (lines : Nat) → Debugger → Debugger × SessionEnd
  | 0, d => (d, .unfinished)
  | lines + 1, d =>
    match (d.print prompt).readLine with
    | (.failed, d) => (d, .inputFailed)
    | (.ended, d) => (d.printLine "", .inputEnded)
    | (.line line, d) =>
      match d.executeLine bound line with
      | (d, .continues) => session prompt bound lines d
      | (d, .quits) => (d, .quit)
      | (d, .failed error) =>
        match error.escape? with
        | some fault => (d, .escaped fault)
        | none => session prompt bound lines (d.printLine ("error: " ++ error.message))
      | (d, .unfinished) => (d, .unfinished)

/-- Carries out command lines until one quits or the input ends; the bound holds for the number of
lines and for the steps of each run. -/
def shell (prompt : RawText) (bound : Nat) (d : Debugger) : Debugger × SessionEnd :=
  session prompt bound bound d

end Debugger

end IttyBitty
