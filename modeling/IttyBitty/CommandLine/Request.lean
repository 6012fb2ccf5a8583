import IttyBitty.CommandLine.Help
import IttyBitty.FileSystem

/-!
# Requests

The toolkit has four commands, each with its own options and the path of one file. Options for the
messages stand before the command. A command line is a request for one of the commands, a question
about the toolkit, or a mistake.
-/

namespace IttyBitty.CommandLine

/-! ## What can be asked for -/

/-- What the file of a program holds. -/
inductive ProgramForm
  | hexListing
  | assembly
  | binary
  deriving DecidableEq, Repr

/-- A file with a program that is to be loaded. -/
structure ProgramFile where
  path : Path
  form : ProgramForm
  deriving DecidableEq, Repr

/-- What to do with a source: where to write, which may have been left open; whether the source is a
hex listing already, whether to show the listing of the assembly, and whether to write a binary
image instead of a hex listing. -/
structure Compilation where
  input : Path
  output : Option Path
  fromHexListing : Bool
  showListing : Bool
  toBinary : Bool
  deriving DecidableEq, Repr

/-- What the toolkit does. -/
inductive Command
  | compile (job : Compilation)
  | execute (program : ProgramFile) (prompting tracing : Bool)
  | debug (program : ProgramFile)
  | parse (input : Path) (showTokens : Bool)
  deriving DecidableEq, Repr

/-- A command with how much is said while it is carried out, and where that is written too. -/
structure Request where
  verbosity : Nat
  quiet : Bool
  logFile : Option Path
  command : Command
  deriving DecidableEq, Repr

/-- The paths that a command names. -/
def Command.paths : Command → List Path
  | .compile job => job.input :: job.output.toList
  | .execute program .. | .debug program => [program.path]
  | .parse input _ => [input]

/-- Whether a command reads standard input. -/
def Command.readsInput : Command → Bool
  | .execute .. | .debug _ => true
  | .compile _ | .parse .. => false

/-- What a command line comes to: a request, a question with its answer, or a mistake in the use of
a program, whose usage line helps to mend it. -/
inductive Invocation
  | request (r : Request)
  | question (answer : String)
  | misuse (program usage : String) (error : UsageError)
  deriving DecidableEq, Repr

/-! ## Options -/

/-- The keys of all options. -/
inductive Setting
  | help
  | version
  | verbose
  | quiet
  | logFile
  | output
  | binary
  | hexListing
  | listing
  | assembly
  | noPrompt
  | trace
  | tokens
  deriving DecidableEq, Repr

/-- The option that every command has. -/
def helpOption : OptionSpec Setting where
  key := .help
  names := ["-h".toList, "--help".toList]
  summary := "show this help message and exit"

/-- An option without a value. -/
def flag (key : Setting) (names : List String) (summary : String) : OptionSpec Setting where
  key := key
  names := names.map String.toList
  summary := summary

/-- An option with a value. -/
def setting (key : Setting) (names : List String) (valueName summary : String) :
    OptionSpec Setting where
  key := key
  names := names.map String.toList
  valueName := some valueName
  summary := summary

/-- The grammar in front of the command and around it. -/
def toolkitGrammar : Grammar Setting where
  options := [
    helpOption,
    flag .version ["--version"] "show program's version number and exit",
    flag .verbose ["-v", "--verbose"] "More console logging (-v info, -vv debug)",
    flag .quiet ["-q", "--quiet"] "Only log errors",
    setting .logFile ["--log-file"] "LOG_FILE" "Also write a DEBUG log to this file"]
  final := [.help, .version]
  operand := "command"
  takesRest := true
  required := false

/-- The grammar of a command with a file for its operand. -/
def fileGrammar (options : List (OptionSpec Setting)) (exclusive : List Setting) :
    Grammar Setting where
  options := helpOption :: options
  exclusive := exclusive
  final := [.help]
  operand := "input"

/-- Where `compile` writes if it is not told. -/
def defaultOutput : String := "ibcm.out"

/-- The name of a log file that is asked for without one. -/
def namelessLog : String := "[]"

/-- The options of `compile`. -/
def compileOptions : List (OptionSpec Setting) := [
  setting .output ["-o", "--output"] "OUTPUT" s!"Output file (default: {defaultOutput})",
  flag .binary ["-b", "--binary"] "Write little-endian binary instead of a hex listing",
  flag .hexListing ["-x", "--hex"] "Input is already a hex listing",
  flag .listing ["--listing"] "Print an address/word/source listing to stdout"]

/-- The options that say what the file of a program holds. -/
def formOptions : List (OptionSpec Setting) := [
  flag .assembly ["-s", "--asm"] "Input is IBCM assembly",
  flag .binary ["-b", "--binary"] "Input is little-endian binary"]

/-- The options of `execute`. -/
def executeOptions : List (OptionSpec Setting) := formOptions ++ [
  flag .noPrompt ["--no-prompt"] "Do not prompt before readH/readC",
  flag .trace ["--trace"] "Log every executed instruction (needs -vv or --log-file)"]

/-- The options of `parse`. -/
def parseOptions : List (OptionSpec Setting) := [
  flag .tokens ["--tokens"] "Print the token stream instead of the AST"]

/-! ## Commands by name -/

/-- The names of the commands. -/
inductive CommandName
  | compile
  | execute
  | debug
  | parse
  deriving DecidableEq, Repr

namespace CommandName

/-- All commands. -/
def all : List CommandName := [.compile, .execute, .debug, .parse]

/-- The word for a command. -/
def word : CommandName → String
  | .compile => "compile"
  | .execute => "execute"
  | .debug => "debug"
  | .parse => "parse"

/-- The command of a word. -/
def ofText? (t : Text) : Option CommandName := all.find? fun c => c.word.toList == t

/-- What a command does, in a few words and in a few more. -/
def summaries : CommandName → String × String
  | .compile => ("Assemble IBCM source", "Assemble IBCM source to a hex listing or binary")
  | .execute => ("Run a program on the simulator", "Run a program on the simulator")
  | .debug => ("Load a program into the debugger", "Load a program into the interactive debugger")
  | .parse =>
    ("Parse IBCMC source and print the AST", "Parse IBCMC source and print the AST")

/-- What the operand of a command is. -/
def operandSummary : CommandName → String
  | .compile => "Input assembly file (or hex listing with -x)"
  | .execute | .debug => "Program file (hex listing by default)"
  | .parse => "Input IBCMC source file"

/-- The grammar of a command. -/
def grammar : CommandName → Grammar Setting
  | .compile => fileGrammar compileOptions []
  | .execute => fileGrammar executeOptions [.assembly, .binary]
  | .debug => fileGrammar formOptions [.assembly, .binary]
  | .parse => fileGrammar parseOptions []

/-- How a command is called. -/
def program (c : CommandName) : String := s!"ibcmkit {c.word}"

/-- The help page of a command. -/
def helpPage (c : CommandName) : String :=
  c.grammar.helpPage c.program [] [] [{ title := "input", summary := some c.operandSummary }]

/-- The request that the options and the file of a command make. -/
def command (c : CommandName) (e : Grammar.Effects Setting) (file : Text) : Command :=
  let input := Path.ofText file
  let form : ProgramForm :=
    if e.has .binary then .binary else if e.has .assembly then .assembly else .hexListing
  match c with
  | .compile =>
    .compile {
      input
      output :=
        if e.has .output then (e.value? .output).map Path.ofText
        else some (Path.ofText defaultOutput.toList)
      fromHexListing := e.has .hexListing
      showListing := e.has .listing
      toBinary := e.has .binary }
  | .execute => .execute ⟨input, form⟩ (!e.has .noPrompt) (e.has .trace)
  | .debug => .debug ⟨input, form⟩
  | .parse => .parse input (e.has .tokens)

end CommandName

/-! ## Command lines -/

namespace Invocation

/-- How the toolkit is called. -/
def toolkit : String := "ibcmkit"

/-- What the toolkit says about its version. -/
def version : String := "ibcmkit 0.1.0\n"

/-- What the toolkit is. -/
def description : String := "IBCM Toolkit — assemble, run and debug IBCM programs"

/-- The help page of the toolkit. -/
def helpPage : String :=
  let row (c : CommandName) : HelpRow := ⟨4, c.word, some c.summaries.1⟩
  let line (c : CommandName) : String :=
    "  " ++ c.word.pushn ' ' (11 - c.word.length) ++ c.summaries.2
  toolkitGrammar.helpPage toolkit [description, ""]
    ("" :: "commands:" :: CommandName.all.map line)
    ({ title := toolkitGrammar.operand, summary := none } :: CommandName.all.map row)

/-- A mistake that the toolkit itself finds. -/
def toolkitMisuse (error : UsageError) : Invocation :=
  .misuse toolkit (toolkitGrammar.usage toolkit) error

/-- The invocation of a command with arguments behind it; `before` holds what stands before it. -/
def ofCommand (before : Grammar.Effects Setting) (c : CommandName) (arguments : List Text) :
    Invocation :=
  match c.grammar.read arguments with
  | .error (.usage error) => .misuse c.program (c.grammar.usage c.program) error
  | .error (.asked _) => .question c.helpPage
  | .ok e =>
    match before.extras ++ e.extras, e.operand with
    | [], some (file :: _) =>
      .request {
        verbosity := before.count .verbose
        quiet := before.has .quiet
        logFile :=
          if before.has .logFile then
            some (Path.ofText ((before.value? .logFile).getD namelessLog.toList))
          else none
        command := c.command e file }
    | extras, _ => toolkitMisuse (.unrecognized extras)

/-- What a command line comes to. Without a command it asks for help. -/
def ofArguments (arguments : List Text) : Invocation :=
  match toolkitGrammar.read arguments with
  | .error (.usage error) => toolkitMisuse error
  | .error (.asked .version) => .question version
  | .error (.asked _) => .question helpPage
  | .ok e =>
    match e.operand with
    | some (word :: arguments) =>
      match CommandName.ofText? word with
      | some c => ofCommand e c arguments
      | none =>
        let choices := CommandName.all.map fun c => c.word.toList
        toolkitMisuse (.invalidChoice toolkitGrammar.operand word choices)
    | _ => if e.extras.isEmpty then .question helpPage else toolkitMisuse (.unrecognized e.extras)

end Invocation

end IttyBitty.CommandLine
