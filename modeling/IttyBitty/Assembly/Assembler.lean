import IttyBitty.Assembly.Line
import IttyBitty.Assembly.Statement
import IttyBitty.Text.Lines

/-!
# The assembler

Assembling takes two passes. The first reads the lines in order, binds every label to the index of
the next statement, and collects the statements; it stops at the first line with a problem. The
second turns the statements into words, now that all labels are known, and stops at the first
statement that has none.

An assembler keeps what the passes have built, so that it can be looked at after an error. Nothing
of it enters the next program: a source that can be read at all starts afresh.
-/

namespace IttyBitty.Assembly

/-- A line that has been read, with the index of its statement. -/
structure SourceLine where
  raw : Text
  statement : Option Nat
  deriving DecidableEq, Repr

/-- What has been built of a program. -/
structure Assembler where
  labels : Labels := []
  statements : Array Statement := #[]
  words : Array Word := #[]
  lines : Array SourceLine := #[]
  deriving DecidableEq

/-- An assembled program: one word for each statement, and the labels. -/
structure Program where
  words : List Word
  labels : Labels
  deriving DecidableEq, Repr

/-- The greatest number of statements. -/
def maxStatements : Nat := 65535

namespace Assembler

/-! ## First pass -/

/-- Notes a line that has no statement. -/
def addLine (a : Assembler) (raw : Text) : Assembler :=
  { a with lines := a.lines.push ⟨raw, none⟩ }

/-- Notes a line and the statement on it. -/
def addStatement (a : Assembler) (number : Nat) (raw : Text) (body : Body) : Assembler :=
  let index := a.statements.size
  { a with
    lines := a.lines.push ⟨raw, some index⟩
    statements := a.statements.push ⟨body, number, raw⟩ }

/-- Binds a label to the next statement, unless it is bound already. -/
def bindLabel (a : Assembler) : Option Text → Except Problem Assembler
  | none => .ok a
  | some label =>
    if (a.labels.lookup label).isSome then .error (.duplicateLabel label)
    else .ok { a with labels := (label, a.statements.size) :: a.labels }

/-- Reads the statement tokens of a line. -/
def readTokens (a : Assembler) (number : Nat) (raw : Text) :
    List Text → Assembler × Option Error
  | [] => (a.addLine raw, none)
  | mnemonic :: operands =>
    if maxStatements ≤ a.statements.size then (a.addLine raw, some .tooManyStatements)
    else
      match Body.ofTokens mnemonic operands with
      | .error problem => (a.addLine raw, some (.ofProblem problem number raw))
      | .ok body => (a.addStatement number raw body, none)

/-- Reads a line. A line whose label is empty is not even noted. -/
def readLine (a : Assembler) (number : Nat) (raw : Text) : Assembler × Option Error :=
  match Line.parse? raw with
  | none => (a, some (.ofProblem .emptyLabel number raw))
  | some line =>
    match a.bindLabel line.label with
    | .error problem => (a.addLine raw, some (.ofProblem problem number raw))
    | .ok a => a.readTokens number raw line.tokens

/-- Reads lines whose first has the given number, up to the first error. -/
def readLines (a : Assembler) (number : Nat) : List Text → Assembler × Option Error
  | [] => (a, none)
  | raw :: rest =>
    match a.readLine number raw with
    | (a, none) => a.readLines (number + 1) rest
    | (a, some error) => (a, some error)

/-! ## Second pass -/

/-- The words of some statements after those in `done`, up to the first that has none. -/
def wordsFrom (labels : Labels) (done : Array Word) :
    List Statement → Array Word × Option Error
  | [] => (done, none)
  | s :: rest =>
    match s.body.word labels with
    | .ok w => wordsFrom labels (done.push w) rest
    | .error problem => (done, some (.ofProblem problem s.number s.raw))

/-- Turns the statements into words. -/
def emit (a : Assembler) : Assembler × Option Error :=
  let (words, error) := wordsFrom a.labels #[] a.statements.toList
  ({ a with words }, error)

/-! ## Both passes -/

/-- The program that has been built. -/
def program (a : Assembler) : Program := ⟨a.words.toList, a.labels⟩

/-- Assembles a text from scratch. -/
def ofText (t : Text) : Assembler × Option Error :=
  match Assembler.readLines {} 1 (Text.lines t) with
  | (a, some error) => (a, some error)
  | (a, none) => a.emit

/-- Assembles a source; one that cannot be read leaves the assembler as it was. -/
def assemble (a : Assembler) (source : Source) : Assembler × Except Error Program :=
  match source.decode with
  | .error fault => (a, .error (.unreadable fault))
  | .ok t =>
    match ofText t with
    | (a, some error) => (a, .error error)
    | (a, none) => (a, .ok a.program)

end Assembler

/-- The program of a source. -/
def assemble (source : Source) : Except Error Program := (Assembler.assemble {} source).2

end IttyBitty.Assembly
