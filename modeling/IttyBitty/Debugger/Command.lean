import IttyBitty.Machine.Fault
import IttyBitty.Text.ShellWords

/-!
# Debugger commands

A command line is a command name and arguments, split like a shell line. The errors of a command
are its own, for a line that asks for nothing the debugger does, or faults of the machine that the
command has stepped.
-/

namespace IttyBitty.Debugger

/-- The commands. -/
inductive Command
  | quit
  | help
  | dump
  | run
  | status
  | step
  deriving DecidableEq, Repr

namespace Command

/-- The commands in the order of the help text. -/
def all : List Command := [.quit, .help, .dump, .run, .status, .step]

/-- The word that names a command. -/
def name : Command → String
  | .quit => "quit"
  | .help => "help"
  | .dump => "dump"
  | .run => "run"
  | .status => "status"
  | .step => "step"

/-- The command that a word names. -/
def ofName? (word : RawText) : Option Command :=
  all.find? fun c => RawText.ofString c.name == word

theorem ofName?_name (c : Command) : ofName? c.name = some c := by
  cases c <;> decide

/-- What `help` prints. -/
def helpText : String :=
  "The following commands are recognized:\n"
    ++ "quit            Exit the debugger.\n"
    ++ "help            Print this message.\n"
    ++ "dump <amt>      Display the contents of the first <amt>\n"
    ++ "                memory locations.\n"
    ++ "run             Run the program until it halts.\n"
    ++ "status          Output the content of all registers and print\n"
    ++ "                the current instruction.\n"
    ++ "step <n>        Execute the next <n> instructions."

end Command

/-- What is wrong with a command line. -/
inductive CommandError
  | unknownCommand (word : RawText)
  | malformedLine (error : ShellWords.Error)
  | missingAmount
  | invalidAmount
  | amountTooLarge
  | invalidSteps
  | tooManyArguments
  | unexpectedArguments
  | halted
  deriving DecidableEq, Repr

/-- The text of a command error. -/
def CommandError.message : CommandError → RawText
  | .unknownCommand word => "unknown command '" ++ word ++ "'"
  | .malformedLine error => s!"could not parse command: {error.message}"
  | .missingAmount => "must specify amount of memory to dump"
  | .invalidAmount => "invalid amount to dump"
  | .amountTooLarge => "invalid amount to dump (must be at most 4096)"
  | .invalidSteps => "invalid number of steps"
  | .tooManyArguments => "expected no more than 1 argument"
  | .unexpectedArguments => "did not expect any arguments"
  | .halted => "machine is halted"

/-- Why a command was not carried out to its end. -/
inductive Error
  | command (error : CommandError)
  | fault (f : Fault)
  deriving DecidableEq, Repr

/-- The fault of an error that is not answered: one that is not the machine's own. -/
def Error.escape? : Error → Option Fault
  | .command _ => none
  | .fault f => if f.isOwn then none else some f

/-- The text of an error. -/
def Error.message : Error → RawText
  | .command error => error.message
  | .fault f => f.message

end IttyBitty.Debugger
