import IttyBitty.CommandLine.Failure
import IttyBitty.CommandLine.Log

/-!
# Sessions

A session is what a request leaves behind while it is carried out: the files, what has been printed,
and the log. Work changes the session and gives a result or fails; a failure undoes nothing of
what has been done before it. Records go to the log file as they are left, so that a command which
reads or writes that very file meets them there.
-/

namespace IttyBitty.CommandLine

/-- The time of the session, the place of the log file if there is one, the files, what has been
printed, and the log so far. -/
structure Session where
  time : String
  logFile : Option (List Text)
  files : FileSystem
  stdout : RawText := []
  log : Array Record := #[]

/-- A part of the work on a request. -/
abbrev Work := ExceptT Failure (StateM Session)

namespace Work

/-- Prints a text. -/
def print (text : RawText) : Work Unit := modify fun s => { s with stdout := s.stdout ++ text }

/-- Leaves some records of one part in the log and in the log file. -/
def note (level : Level) (reporter : Reporter) (messages : List String) : Work Unit :=
  modify fun s =>
    let records := messages.map fun m => (⟨level, reporter, m⟩ : Record)
    let rows := String.join (records.map (Record.row s.time))
    { s with
      log := s.log ++ records.toArray
      files := match s.logFile with
        | none => s.files
        | some place => s.files.append place (Utf8.encode rows.toList) }

/-- Reads a file. -/
def readFile (path : Path) : Work (List UInt8) := do
  match (← get).files.read path with
  | .ok bytes => return bytes
  | .error error => throw (.file error path)

/-- Writes a file. -/
def writeFile (path : Path) (bytes : List UInt8) : Work Unit := do
  match (← get).files.write path bytes with
  | .ok files => modify fun s => { s with files }
  | .error error => throw (.file error path)

/-- The result of a step that leaves no trace. -/
def ofExcept {ε α : Type} (cause : ε → Failure) : Except ε α → Work α
  | .ok a => return a
  | .error error => throw (cause error)

end Work

end IttyBitty.CommandLine
