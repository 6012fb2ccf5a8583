import IttyBitty.Assembly.Listing
import IttyBitty.CommandLine.Request
import IttyBitty.CommandLine.Session
import IttyBitty.CommandLine.StandardInput
import IttyBitty.Debugger.Basic
import IttyBitty.Ibcmc.Outline
import IttyBitty.Memory.Binary

/-!
# Carrying out requests

Every command reads one file. `compile` writes another one, as the last thing it does, so nothing
is written unless all went well; the other commands write none. Running a program has no bound of
its own; the toolkit is given one, which holds for every run.
-/

namespace IttyBitty.CommandLine

/-! ## Loading -/

namespace Work

/-- Assembles a source. -/
def assemble (source : List UInt8) : Work Assembly.Assembler := do
  let (a, result) := Assembly.Assembler.assemble {} (.bytes source)
  let linesRead := match result with
    | .ok _ => true
    | .error (.line problem ..) => problem.isResolution
    | .error _ => false
  if linesRead then
    note .debug .assembler [s!"Pass 1: {a.statements.size} statement(s)"]
  let program ← ofExcept .assembly result
  note .debug .assembler
    [s!"Assembled {program.words.length} statement(s), {program.labels.length} label(s)"]
  return a

/-- Loads assembled words. -/
def loadAssembled (a : Assembly.Assembler) : Work Memory :=
  ofExcept .memory (Memory.loadWords a.words.toList)

/-- Loads a hex listing. -/
def loadHexListing (bytes : List UInt8) : Work Memory := do
  let text ← ofExcept .unreadable (Utf8.decode bytes)
  let memory ← ofExcept .hexListing (HexListing.load text)
  note .debug .memory [s!"Loaded {memory.length} words from hex listing"]
  return memory

/-- Loads a binary image. -/
def loadBinary (bytes : List UInt8) : Work Memory := do
  let memory ← ofExcept .memory (Binary.load bytes)
  note .debug .memory [s!"Loaded {memory.length} words from {bytes.length} bytes of binary"]
  return memory

/-- Loads the program in a file. -/
def load (program : ProgramFile) : Work Memory := do
  let bytes ← readFile program.path
  let memory ← match program.form with
    | .hexListing => loadHexListing bytes
    | .binary => loadBinary bytes
    | .assembly => do loadAssembled (← assemble bytes)
  note .info .toolkit
    [s!"Loaded {memory.length} word(s) from {String.ofList program.path.text}"]
  return memory

/-! ## Commands -/

/-- The memory that a compilation writes out. -/
def compiled (job : Compilation) (source : List UInt8) : Work Memory := do
  if job.fromHexListing then loadHexListing source
  else
    let a ← assemble source
    if job.showListing then print (a.listing ++ "\n")
    loadAssembled a

/-- The bytes that a memory is written out as. -/
def image (job : Compilation) (memory : Memory) : List UInt8 :=
  if job.toBinary then Binary.ofMemory memory else Utf8.encode (HexListing.ofMemory memory)

/-- Compiles a source. -/
def compile (job : Compilation) : Work Unit := do
  let source ← readFile job.input
  let memory ← compiled job source
  let some output := job.output | throw .namelessOutput
  writeFile output (image job memory)
  note .info .toolkit
    [s!"Wrote {memory.length} word(s) -> {String.ofList output.text}"]

/-- The failure behind a read that failed. -/
def inputFailure (stdin : StandardInput) (failure : Failure) : Failure :=
  match stdin with
  | .bytes _ | .decoded _ => failure
  | .interrupted => .interrupted

/-- Runs a program. -/
def execute (bound : Nat) (stdin : StandardInput) (program : ProgramFile)
    (prompting tracing : Bool) : Work Unit := do
  let memory ← load program
  let machine : Machine := { memory, input := stdin.input, prompting, tracing }
  match machine.runToHalt bound with
  | none => throw .unfinished
  | some r =>
    print r.machine.output.text
    note .debug .machine r.machine.traceLines
    match r.fault with
    | some .inputFailed => throw (inputFailure stdin (.fault .inputFailed))
    | some fault => throw (.fault fault)
    | none =>
      let message := s!"Machine halted after {r.steps} step(s)"
      note .debug .machine [message]
      note .info .toolkit [message]

/-- The greeting of the debugger. -/
def greeting : String := "IBCM debugger. Type 'help' for a list of commands.\n"

/-- Lets a program be debugged; the program and the debugger share standard input and output. -/
def debug (bound : Nat) (stdin : StandardInput) (program : ProgramFile) : Work Unit := do
  let memory ← load program
  print greeting
  let machine : Machine := { memory, input := stdin.input }
  let d : Debugger := { machine, keyboard := .ofMachine, screen := .ofMachine }
  let (d, ending) := d.shell Debugger.shellPrompt bound
  print d.machine.output.text
  note .debug .debugger (d.history.toList.map fun (word, arguments) =>
    s!"debugger command {String.ofList word.chars} {RawText.quotedList arguments}")
  match ending with
  | .quit | .inputEnded => return
  | .inputFailed => throw (inputFailure stdin .undecodableCommands)
  | .escaped fault => throw (.fault fault)
  | .unfinished => throw .unfinished

/-- Shows the tokens or the tree of an IBCMC source. -/
def parse (input : Path) (showTokens : Bool) : Work Unit := do
  let bytes ← readFile input
  let text ← ofExcept .unreadable (Utf8.decode bytes)
  if showTokens then
    let tokens ← ofExcept (.frontEnd ∘ .lexical) (Ibcmc.tokenize text)
    print (String.join (tokens.map fun t => t.display ++ "\n"))
  else
    let tree ← ofExcept .frontEnd (Ibcmc.parse text)
    print (tree.outline 0 ++ "\n")

/-- Carries out a command. -/
def perform (bound : Nat) (stdin : StandardInput) : Command → Work Unit
  | .compile job => compile job
  | .execute program prompting tracing => execute bound stdin program prompting tracing
  | .debug program => debug bound stdin program
  | .parse input showTokens => parse input showTokens

end Work

/-! ## Requests -/

namespace Request

/-- The least level that the console shows. -/
def consoleLevel (r : Request) : Level := .ofVerbosity r.verbosity r.quiet

/-- Begins the session of a request: its log file is made if it is not there. -/
def start (r : Request) (time : String) (files : FileSystem) : Except FileError Session :=
  match r.logFile with
  | none => .ok { time, logFile := none, files }
  | some path => do
    let (place, files) ← files.ensure (files.collapse path)
    return { time, logFile := some place, files }

/-- Leaves the first record. -/
def announce (r : Request) : Work Unit :=
  Work.note .debug .toolkit [s!"Logging initialized (console level {r.consoleLevel.name})"]

/-- The work on a request. -/
def work (r : Request) (bound : Nat) (stdin : StandardInput) : Work Unit := do
  r.announce
  Work.perform bound stdin r.command

end Request

/-- What the toolkit leaves behind: how it ended, what it printed, the records that the console
showed, the place of the log file if there is one, and the files. -/
structure Outcome where
  ending : Ending
  stdout : RawText := []
  stderr : RawText := []
  console : List Record := []
  logFile : Option (List Text) := none
  files : FileSystem

/-- Carries out a request at a time. -/
def Request.run (r : Request) (bound : Nat) (time : String) (files : FileSystem)
    (stdin : StandardInput) : Outcome :=
  match r.start time files with
  | .error error => { ending := .escaped (.logFile error), files }
  | .ok session =>
    let (result, session) := (r.work bound stdin).run.run session
    { ending := match result with
        | .ok () => .exit 0
        | .error failure => failure.ending
      stdout := session.stdout
      stderr := match result with
        | .ok () => ""
        | .error failure => failure.report
      console := session.log.toList.filter (Record.isShown r.consoleLevel)
      logFile := session.logFile
      files := session.files }

/-- Runs the toolkit with a command line at a time. -/
def run (bound : Nat) (time : String) (arguments : List Text) (files : FileSystem)
    (stdin : StandardInput) : Outcome :=
  match Invocation.ofArguments arguments with
  | .request r => r.run bound time files stdin
  | .question answer => { ending := .exit 0, stdout := answer, files }
  | .misuse program usage error =>
    { ending := .exit 2, stderr := s!"{usage}\n{program}: error: {error.message}\n", files }

end IttyBitty.CommandLine
