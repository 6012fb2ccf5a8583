import IttyBitty.CommandLine.Run
import Std.Time.Format

/-!
# The program

Looks at the files that the arguments name and reads standard input to its end, lets the toolkit
carry the request out, and then prints and writes what that leaves behind.
-/

namespace IttyBitty.CommandLine

/-- A place as the system knows it. -/
def location (place : List Text) : String := String.ofList ('/' :: List.intercalate ['/'] place)

/-- Whether there is a directory at a place. -/
def hasDir (place : List Text) : IO Bool := do ((← IO.currentDir) / location place).isDir

/-- The bytes of a file, if it can be read. -/
def contents? (place : List Text) : IO (Option (List UInt8)) := do
  try return some (← IO.FS.readBinFile (location place)).toList
  catch _ => return none

/-- Looks at everything on the way along some names. -/
def survey (fs : FileSystem) (place : List Text) : List Text → IO FileSystem
  | [] => return fs
  | name :: rest => do
    let next := if name = Path.parent then place.dropLast else place ++ [name]
    if ← hasDir next then survey { fs with dirs := next :: fs.dirs } next rest
    else
      match ← contents? next with
      | some bytes => survey { fs with files := (next, bytes) :: fs.files } next rest
      | none => survey fs next rest

/-- The files that matter for a request. -/
def filesFor (r : Request) : IO FileSystem := do
  let here := Path.ofText (← IO.currentDir).toString.toList
  let fs : FileSystem := { here := here.names, files := [], dirs := [] }
  let paths := r.command.paths ++ (r.logFile.map fs.collapse).toList
  paths.foldlM (fun fs p => survey fs (fs.start p) p.names) fs

/-- Reads all that is left of a stream. -/
partial def readAll (stream : IO.FS.Stream) (done : ByteArray) : IO ByteArray := do
  let block ← stream.read 65536
  if block.isEmpty then return done else readAll stream (done ++ block)

/-- The time as log files show it. -/
def currentTime : IO String := do
  return (← Std.Time.PlainDateTime.now).format "uuuu-MM-dd HH:mm:ss"

/-- A bound that no run comes near. -/
def runBound : Nat := 1000000000000000000

/-- Prints and writes what the toolkit has left behind, and gives the exit status. -/
def deliver (before : FileSystem) (o : Outcome) : IO UInt32 := do
  let stdout ← IO.getStdout
  let stderr ← IO.getStderr
  for (place, bytes) in before.changes o.files do
    IO.FS.writeBinFile (location place) (ByteArray.mk bytes.toArray)
  stdout.putStr (String.ofList o.stdout.chars)
  stdout.flush
  for r in o.console do
    stderr.putStrLn s!"{r.level.name} {r.message}"
  stderr.putStr (String.ofList o.stderr.chars)
  match o.ending with
  | .exit status => return status.toUInt32
  | .escaped (.logFile error) =>
    stderr.putStrLn s!"log file: {error.words}"
    return 1
  | .escaped .nullInPath =>
    stderr.putStrLn FileError.nullInPath.words
    return 1
  | .escaped .namelessOutput =>
    stderr.putStrLn "output without a name"
    return 1
  | .escaped .undecodableCommands =>
    stderr.putStrLn "commands are not UTF-8"
    return 1
  | .escaped .longNumeral =>
    stderr.putStrLn "a numeral is too long"
    return 1
  | .escaped .unencodableLine =>
    stderr.putStrLn "a line cannot be encoded"
    return 1
  | .unfinished =>
    stderr.putStrLn "the program does not halt"
    return 1

end IttyBitty.CommandLine

open IttyBitty CommandLine in
/-- Runs the toolkit with the arguments of the program. -/
def main (arguments : List String) : IO UInt32 := do
  let arguments := arguments.map String.toList
  match Invocation.ofArguments arguments with
  | .request r =>
    let files ← filesFor r
    let typed ← if r.command.readsInput then readAll (← IO.getStdin) ByteArray.empty
      else pure ByteArray.empty
    deliver files (run runBound (← currentTime) arguments files (.bytes typed.toList))
  | _ =>
    let files : FileSystem := { here := [], files := [], dirs := [] }
    deliver files (run runBound "" arguments files (.bytes []))
