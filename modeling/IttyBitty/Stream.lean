import IttyBitty.Text.Raw

/-!
# Streams

An input is what is left to read: pieces of text, and places where reading fails. A line ends after
a line feed or at the end of the input. A failure discards the part of a line that has been read
before it; what comes after it can still be read, unless the input is broken for good.

An output holds what has been written to it, and says whether writing and flushing work.
-/

namespace IttyBitty

/-- A stretch of input. -/
inductive Piece
  | text (t : RawText)
  | failure
  deriving DecidableEq, Repr

/-- What is left of an input; a broken one fails for ever after its last piece. -/
structure Input where
  pieces : List Piece
  broken : Bool := false
  deriving DecidableEq, Repr

/-- The result of asking for a line, which holds its line feed unless the input ended first. -/
inductive Reading
  | line (t : RawText)
  | ended
  | failed
  deriving DecidableEq, Repr

namespace Input

/-- The input that consists of a text. -/
def ofText (t : RawText) : Input := { pieces := [.text t] }

/-- The input on which every read fails. -/
def unreadable : Input := { pieces := [], broken := true }

/-- The text that is left, without the failures in it. -/
def unread (input : Input) : RawText :=
  input.pieces.flatMap fun
    | .text t => t
    | .failure => []

/-- Reads a line whose beginning is `start` from the pieces of an input. -/
def readFrom (broken : Bool) (start : RawText) : List Piece → Reading × List Piece
  | [] =>
    if broken then (.failed, [])
    else if start.isEmpty then (.ended, [])
    else (.line start, [])
  | .failure :: rest => (.failed, rest)
  | .text t :: rest =>
    match t.span (· != .char '\n') with
    | (head, newline :: tail) => (.line (start ++ head ++ [newline]), .text tail :: rest)
    | (head, []) => readFrom broken (start ++ head) rest

/-- Reads a line. -/
def readLine (input : Input) : Reading × Input :=
  let (reading, rest) := readFrom input.broken [] input.pieces
  (reading, { input with pieces := rest })

end Input

/-- Which operations of an output work: all of them, none, or writing but not flushing. -/
inductive Output.Mode
  | works
  | failsToWrite
  | failsToFlush
  deriving DecidableEq, Repr

/-- What has been written so far, and whether more can be. -/
structure Output where
  mode : Output.Mode := .works
  text : RawText := []
  deriving DecidableEq, Repr

namespace Output

/-- Whether a write works. -/
def writes (output : Output) : Bool := output.mode != .failsToWrite

/-- Whether a flush works. -/
def flushes (output : Output) : Bool := output.mode != .failsToFlush

/-- The output with a text behind what has been written. -/
def append (output : Output) (text : RawText) : Output :=
  { output with text := output.text ++ text }

end Output

end IttyBitty
