import IttyBitty.Text.Raw

/-!
# Faults of a running machine

A step ends in a fault when the machine is halted, when its program counter is no address, when a
line of input does not say what it should, or when a stream fails. A line for a character is encoded
before it is looked at; one that holds a surrogate cannot be, and that fault is not one of the
machine's own: nothing is said of it.
-/

namespace IttyBitty

/-- Why a step was not completed. -/
inductive Fault
  | halted
  | outOfBounds (pc : Nat)
  | wordLength (line : RawText)
  | wordDigits (line : RawText)
  | notOneCharacter (line : RawText)
  | unencodable (line : RawText)
  | inputFailed
  | inputEnded
  | outputFailed
  | promptFailed
  deriving DecidableEq, Repr

namespace Fault

/-- Whether a fault is one of the machine's own, which whoever runs it answers. -/
def isOwn : Fault → Bool
  | .unencodable _ => false
  | _ => true

/-- The text of a fault. -/
def message : Fault → RawText
  | .halted => "machine is halted"
  | .outOfBounds pc => s!"program counter out of bounds: 0x{String.ofList (Hex.lower 1 pc)}"
  | .wordLength line =>
    "'" ++ line ++ "' is not a valid hexadecimal word (should be at most 4 hexadecimal digits)"
  | .wordDigits line => "'" ++ line ++ "' is not a valid hexadecimal word"
  | .notOneCharacter line => "expected a single ASCII character; got '" ++ line ++ "'"
  | .unencodable _ => ""
  | .inputFailed => "could not read user input"
  | .inputEnded => "could not read user input: end of input"
  | .outputFailed => "could not write to output"
  | .promptFailed => "could not display prompt"

end Fault

end IttyBitty
