import IttyBitty.Stream
import IttyBitty.Text.Utf8

/-!
# Standard input

Standard input is a byte string, a text that has been decoded in some way already and may hold
surrogates, or a keyboard at which the reader gives up. Bytes are decoded in blocks as they are
needed. Every kind of line end becomes a line feed. A block that is not UTF-8 is a place where
reading fails, and none of it is read; a sequence may go on from one block into the next, and so may
a line end. If the bytes end inside a sequence, reading fails for ever.

Whether a sequence of three bytes is a surrogate shows at its second byte, but is judged only when
there is a third: a block that ends in the first two bytes of a surrogate is read up to them, and
reading fails from there on.
-/

namespace IttyBitty.CommandLine

/-- What stands behind standard input. -/
inductive StandardInput
  | bytes (bs : List UInt8)
  | decoded (t : RawText)
  | interrupted
  deriving DecidableEq, Repr

namespace StandardInput

/-- The number of bytes in a block. -/
def blockSize : Nat := 8192

/-- A sequence that is left open between two blocks: one that may still become a character, or the
first two bytes of a surrogate. -/
inductive Opening
  | character (p : Utf8.Partial)
  | surrogate
  deriving DecidableEq, Repr

/-- What is left open between two blocks: a sequence that has begun, and a carriage return that may
belong to the line feed after it. -/
structure Pending where
  opening : Option Opening := none
  carriage : Bool := false

/-- Turns every line end into a line feed; `carriage` tells of a carriage return just before. The
text that is done comes last first. -/
def lineFeeds (carriage : Bool) (done : Text) : Text → Text × Bool
  | [] => (done.reverse, carriage)
  | '\r' :: rest => lineFeeds true (if carriage then '\n' :: done else done) rest
  | '\n' :: rest => lineFeeds false ('\n' :: done) rest
  | c :: rest => lineFeeds false (if carriage then c :: '\n' :: done else c :: done) rest

/-- The characters of a block that begins inside a sequence or between characters, and what it
leaves open. -/
def scanBlock (start : Option Utf8.Partial) (block : List UInt8) :
    Option (Text × Option Opening) :=
  match Utf8.scan 0 [] start block with
  | .ok progress => some (progress.chars, progress.open?.map .character)
  | .error _ =>
    match Utf8.scan 0 [] start block.dropLast, block.getLast? with
    | .ok ⟨chars, some p⟩, some b =>
      if p.beginsSurrogate b then some (chars, some .surrogate) else none
    | _, _ => none

/-- The characters of a block behind what was left open, and what it leaves open itself. Nothing can
stand behind the first two bytes of a surrogate. -/
def scanBehind (block : List UInt8) : Option Opening → Option (Text × Option Opening)
  | none => scanBlock none block
  | some (.character p) => scanBlock (some p) block
  | some .surrogate => none

/-- Decodes a block. One that cannot be decoded leaves open what was open before it. -/
def decodeBlock (p : Pending) (block : List UInt8) : Piece × Pending :=
  match scanBehind block p.opening with
  | none => (.failure, p)
  | some (chars, opening) =>
    let (text, carriage) := lineFeeds p.carriage [] chars
    (.text (RawText.ofText text), ⟨opening, carriage⟩)

/-- The end of the input: an open sequence breaks it; an open carriage return is a line end. -/
def finish (p : Pending) : Input :=
  if p.opening.isSome then .unreadable
  else { pieces := if p.carriage then [.text [.char '\n']] else [] }

/-- Decodes bytes block by block. -/
def decodeFrom (p : Pending) (bs : List UInt8) : Input :=
  if bs.isEmpty then finish p
  else
    let (piece, next) := decodeBlock p (bs.take blockSize)
    let rest := decodeFrom next (bs.drop blockSize)
    { rest with pieces := piece :: rest.pieces }
termination_by bs.length
decreasing_by
  have : bs.length ≠ 0 := by simp_all
  simp only [List.length_drop, blockSize]
  omega

/-- The input that a machine and a debugger read. -/
def input : StandardInput → Input
  | .bytes bs => decodeFrom {} bs
  | .decoded t => .ofText t
  | .interrupted => .unreadable

end StandardInput

end IttyBitty.CommandLine
