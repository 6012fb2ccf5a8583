import IttyBitty.Memory.Basic
import IttyBitty.Text.Hex

/-!
# Memory dumps

A dump shows the first words of a memory, eight a row. A row starts with the address of its first
word; the last row may be shorter.
-/

namespace IttyBitty.Memory

/-- The text of a row that starts at an address. -/
def dumpRow (base : Nat) (words : List Word) : String :=
  String.ofList (Hex.lower 3 base ++ ':' :: words.flatMap fun w => ' ' :: Hex.lower 4 w.toNat)

/-- The rows of some words that start at address 0. -/
def dumpRows (words : List Word) : List String :=
  (List.range ((words.length + 7) / 8)).map fun k => dumpRow (8 * k) ((words.drop (8 * k)).take 8)

/-- The dump of the first `amount` words; an amount below zero or above the size is brought to the
nearest of the two. -/
def dump (m : Memory) (amount : Int) : List String := dumpRows (m.words.take amount.toNat)

end IttyBitty.Memory
