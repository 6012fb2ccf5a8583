import IttyBitty.Assembly.Error
import IttyBitty.FileSystem
import IttyBitty.Ibcmc.Parser
import IttyBitty.Machine.Fault
import IttyBitty.Memory.HexListing

/-!
# Failures

What can go wrong while a request is carried out, and how the toolkit ends then. Most failures have
a message on standard error and the status 1. An interruption has a status of its own. Six kinds of
failure are not answered and end the toolkit as they are: a log file that cannot be opened, which
comes before all work on the request, a null character in a path, an output without a name,
commands for the debugger that are not UTF-8, a numeral in a source that is too long to be read, and
a line typed for a character that cannot be encoded.
-/

namespace IttyBitty.CommandLine

/-- Why a request was not carried out to its end. -/
inductive Failure
  | file (error : FileError) (path : Path)
  | namelessOutput
  | assembly (error : Assembly.Error)
  | hexListing (error : HexListing.Error)
  | memory (error : Memory.Error)
  | unreadable (fault : Utf8.Fault)
  | frontEnd (error : Ibcmc.FrontEndError)
  | fault (cause : Fault)
  | interrupted
  | undecodableCommands
  | unfinished
  deriving DecidableEq, Repr

/-- A failure that is not answered. -/
inductive Escape
  | logFile (error : FileError)
  | nullInPath
  | namelessOutput
  | undecodableCommands
  | longNumeral
  | unencodableLine
  deriving DecidableEq, Repr

/-- How the toolkit ends: with a status, with a failure that is not answered, or not at all within
the bound that it was given. -/
inductive Ending
  | exit (status : Nat)
  | escaped (failure : Escape)
  | unfinished
  deriving DecidableEq, Repr

namespace Failure

/-- How the toolkit ends after a failure. -/
def ending : Failure → Ending
  | .file .nullInPath _ => .escaped .nullInPath
  | .namelessOutput => .escaped .namelessOutput
  | .undecodableCommands => .escaped .undecodableCommands
  | .assembly .amountTooLong | .frontEnd (.lexical (.badLiteral .tooLong ..)) =>
    .escaped .longNumeral
  | .fault (.unencodable _) => .escaped .unencodableLine
  | .unfinished => .unfinished
  | .interrupted => .exit 130
  | _ => .exit 1

/-- What is written on standard error about a failure. -/
def report : Failure → RawText
  | .file .nullInPath _ | .namelessOutput | .undecodableCommands | .unfinished => ""
  | .assembly .amountTooLong | .frontEnd (.lexical (.badLiteral .tooLong ..)) => ""
  | .fault (.unencodable _) => ""
  | .file error path => s!"error: {error.message path}\n"
  | .assembly error@(.line ..) => s!"Assembly error: {error.message}\n"
  | .assembly error => s!"error: {error.message}\n"
  | .hexListing error => s!"error: {error.message}\n"
  | .memory error => s!"error: {error.message}\n"
  | .unreadable bad => s!"error: {Source.unreadableMessage bad}\n"
  | .frontEnd error => s!"{error.message}\n"
  | .fault cause => "error: " ++ cause.message ++ "\n"
  | .interrupted => "\n"

end Failure

end IttyBitty.CommandLine
