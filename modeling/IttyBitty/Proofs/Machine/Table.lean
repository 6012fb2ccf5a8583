import IttyBitty.Machine.Fault
import IttyBitty.Proofs.Text.Hexadecimal
import IttyBitty.Text.Blank

/-!
# The instruction table as an interpreter

The table of instructions read as arithmetic on the fetched word. There is
no decoder here and no list of operations: the word's group is its quotient
by 4096, its selector the two bits below, its address the remainder by 4096
and its amount the remainder by 16. Words are natural numbers below 65536
and memory is a function on addresses.
-/

namespace IttyBitty.Table

/-- The state that the table speaks about: the registers, the memory, the
flag, the text that is left to read and the text that has been written. -/
structure State where
  acc : Nat
  ir : Nat
  pc : Nat
  cells : Nat → Nat
  halted : Bool
  unread : RawText
  written : RawText

namespace State

/-- The state with a text behind what has been written. -/
def write (s : State) (text : RawText) : State := { s with written := s.written ++ text }

/-- Takes one line of the text and trims it; `value?` says which lines are
accepted and as which word. The text may have ended. -/
def read (s : State) (value? : RawText → Option Nat) (refusal : RawText → Fault) :
    State × Option Fault :=
  if s.unread = [] then (s, some .inputEnded)
  else
    let line := RawText.trim (s.unread.takeWhile (· != .char '\n'))
    let s := { s with unread := (s.unread.dropWhile (· != .char '\n')).drop 1 }
    match value? line with
    | some w => ({ s with acc := w }, none)
    | none => (s, some (refusal line))

end State

/-! ## What is typed and what is printed -/

/-- The place of a code point among the figures; a surrogate is none. -/
def figure? : CodePoint → Option Nat
  | .char c => Hex.place? c
  | .surrogate _ => none

/-- The word that a line means: one to four figures, highest first. -/
def typedWord (line : RawText) : Option Nat :=
  if 1 ≤ line.length ∧ line.length ≤ 4 then
    (line.mapM figure?).map fun digits => Nat.ofDigits 16 digits.reverse
  else none

/-- The word that a line means: the number of its only character, which has
to be one of ASCII. -/
def typedCharacter : RawText → Option Nat
  | [.char c] => if c.toNat ≤ 127 then some c.toNat else none
  | _ => none

/-- Why a line means no word: its length is looked at first. -/
def wordRefusal (line : RawText) : Fault :=
  if 1 ≤ line.length ∧ line.length ≤ 4 then .wordDigits line else .wordLength line

/-- Why a line means no character: whether it can be encoded is looked at first. -/
def characterRefusal (line : RawText) : Fault :=
  if (RawText.text? line).isSome then .notOneCharacter line else .unencodable line

/-- The line that shows a word. -/
def wordLine (w : Nat) : String := String.ofList (Hex.fourFigures w ++ ['\n'])

/-- The line that shows the character of a word's low byte. -/
def characterLine (w : Nat) : String := String.ofList [Char.ofNat (w % 256), '\n']

/-! ## The table -/

/-- The effect of an instruction, by its group and selector; the program
counter stands behind it already. -/
def effect (prompting : Bool) (group selector address n : Nat) (s : State) :
    State × Option Fault :=
  let cell := s.cells address
  match group, selector with
  | 0, _ => ({ s with halted := true }, none)
  | 1, 0 =>
    (if prompting then s.write "Enter hexadecimal word: " else s).read
      typedWord wordRefusal
  | 1, 1 =>
    (if prompting then s.write "Enter ASCII character: " else s).read
      typedCharacter characterRefusal
  | 1, 2 => (s.write (wordLine s.acc), none)
  | 1, _ => (s.write (characterLine s.acc), none)
  | 2, 0 => ({ s with acc := s.acc * 2 ^ n % 65536 }, none)
  | 2, 1 => ({ s with acc := s.acc / 2 ^ n }, none)
  | 2, 2 => ({ s with acc := s.acc * 2 ^ n % 65536 + s.acc / 2 ^ (16 - n) }, none)
  | 2, _ => ({ s with acc := s.acc / 2 ^ n + s.acc * 2 ^ (16 - n) % 65536 }, none)
  | 3, _ => ({ s with acc := cell }, none)
  | 4, _ => ({ s with cells := fun a => if a = address then s.acc else s.cells a }, none)
  | 5, _ => ({ s with acc := (s.acc + cell) % 65536 }, none)
  | 6, _ => ({ s with acc := (s.acc + 65536 - cell) % 65536 }, none)
  | 7, _ => ({ s with acc := s.acc &&& cell }, none)
  | 8, _ => ({ s with acc := s.acc ||| cell }, none)
  | 9, _ => ({ s with acc := s.acc ^^^ cell }, none)
  | 10, _ => ({ s with acc := 65535 - s.acc }, none)
  | 11, _ => (s, none)
  | 12, _ => ({ s with pc := address }, none)
  | 13, _ => (if s.acc = 0 then { s with pc := address } else s, none)
  | 14, _ => (if 32768 ≤ s.acc then { s with pc := address } else s, none)
  | _, _ => ({ s with acc := s.pc, pc := address }, none)

/-- One step: the word at the program counter goes to the instruction
register, the counter moves behind it, and the word takes effect. -/
def step (prompting : Bool) (s : State) : State × Option Fault :=
  let w := s.cells s.pc
  effect prompting (w / 4096) (w / 1024 % 4) (w % 4096) (w % 16)
    { s with ir := w, pc := s.pc + 1 }

end IttyBitty.Table
