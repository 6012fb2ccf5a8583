import IttyBitty.Memory.Basic
import IttyBitty.Text.Blank
import IttyBitty.Text.Lines

/-!
# Hex listings

A hex listing has one word a line: the first four characters of the trimmed line are its digits,
and what follows them is free text. Blank lines and lines that start with two slashes say nothing.
Listings are written with four lower-case digits a line and nothing else.
-/

namespace IttyBitty.HexListing

/-- Why a listing cannot be loaded: a line that does not start with a word, or too many words. -/
inductive Error
  | notAWord (line : Text)
  | memory (e : Memory.Error)
  deriving DecidableEq, Repr

/-- The text of an error. -/
def Error.message : Error → String
  | .notAWord line => s!"expected hexadecimal word at start of line: '{String.ofList line}'"
  | .memory e => e.message

/-- Whether a trimmed line carries a word. -/
def isRow (line : Text) : Bool :=
  match line with
  | [] => false
  | '/' :: '/' :: _ => false
  | _ => true

/-- The trimmed lines that carry words. -/
def rows (t : Text) : List Text := ((Text.lines t).map Text.trim).filter isRow

/-- The word at the start of a row. -/
def word? (row : Text) : Option Word :=
  let digits := row.take 4
  if digits.length = 4 ∧ digits.all Hex.isDigit then some (BitVec.ofNat 16 (Hex.number digits))
  else none

/-- Reads rows after the first `count`, whose words are `done`, last first. The first row that is
no word or is one too many decides the error. -/
def wordsFrom (count : Nat) (done : List Word) : List Text → Except Error (List Word)
  | [] => .ok done.reverse
  | row :: rest =>
    match word? row with
    | none => .error (.notAWord row)
    | some w =>
      if count < 4096 then wordsFrom (count + 1) (w :: done) rest
      else .error (.memory .tooManyRows)

/-- The words of a listing. -/
def words (t : Text) : Except Error (List Word) := wordsFrom 0 [] (rows t)

/-- The memory that a listing describes. -/
def load (t : Text) : Except Error Memory := do
  let ws ← words t
  (Memory.loadWords ws).mapError .memory

/-- The line of a word. -/
def line (w : Word) : Text := Hex.lower 4 w.toNat ++ ['\n']

/-- The listing of some words. -/
def ofWords (ws : List Word) : Text := ws.flatMap line

/-- The listing of a memory's program. -/
def ofMemory (m : Memory) : Text := ofWords m.program

end IttyBitty.HexListing
