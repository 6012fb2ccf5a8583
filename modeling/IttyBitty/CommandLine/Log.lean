/-!
# Log records

While a request is carried out, its parts leave records of what they do. A log file takes all of
them, a row for each behind what it held before; the console shows those that are at least as grave
as the request wants.
-/

namespace IttyBitty.CommandLine

/-- How grave a record is, least first. -/
inductive Level
  | debug
  | info
  | warning
  | error
  deriving DecidableEq, Repr

namespace Level

/-- The name of a level. -/
def name : Level → String
  | .debug => "DEBUG"
  | .info => "INFO"
  | .warning => "WARNING"
  | .error => "ERROR"

/-- The place of a level among all. -/
def rank : Level → Nat
  | .debug => 0
  | .info => 1
  | .warning => 2
  | .error => 3

/-- The least level that the console shows: less than warnings if asked for, and only errors if
quiet is kept, whatever else is asked for. -/
def ofVerbosity (verbosity : Nat) (quiet : Bool) : Level :=
  if quiet then .error
  else
    match verbosity with
    | 0 => .warning
    | 1 => .info
    | _ => .debug

end Level

/-- The parts that leave records. -/
inductive Reporter
  | toolkit
  | assembler
  | memory
  | machine
  | debugger
  deriving DecidableEq, Repr

/-- The name of a part in the log. -/
def Reporter.name : Reporter → String
  | .toolkit => "ibcmkit"
  | .assembler => "ibcm_compiler.assembler"
  | .memory => "ibcm_emulator.mem.memory"
  | .machine => "ibcm_emulator.emu"
  | .debugger => "ibcm_emulator.debugger"

/-- The definition that leaves the records of a part. -/
def Reporter.definition : Reporter → String
  | .toolkit => "CommandLine.Work"
  | .assembler => "Work.assemble"
  | .memory => "Work.load"
  | .machine => "Work.execute"
  | .debugger => "Work.debug"

/-- A record. -/
structure Record where
  level : Level
  reporter : Reporter
  message : String
  deriving DecidableEq, Repr

/-- The row of a record in a log file: the time, the level in a column of seven characters, the part
that has left the record, where it did so, and the message. -/
def Record.row (time : String) (r : Record) : String :=
  let level := r.level.name.pushn ' ' (7 - r.level.name.length)
  s!"{time} | {level} | {r.reporter.name} | {r.reporter.definition} | {r.message}\n"

/-- Whether a console that starts at a level shows a record. -/
def Record.isShown (least : Level) (r : Record) : Bool := least.rank ≤ r.level.rank

end IttyBitty.CommandLine
