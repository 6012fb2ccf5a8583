import IttyBitty.Assembly.Assembler

/-!
# Listings

A listing shows each line of a source that is not blank beside the address and the word of its
statement. Both columns stay empty for a line without a statement and for a statement that has no
word yet.
-/

namespace IttyBitty.Assembly.Assembler

/-- The rows above the lines. -/
def header : List String :=
  ["ADDR  WORD  SOURCE", String.ofList (List.replicate 60 '-')]

/-- The address and the word of a line's statement. -/
def placed (a : Assembler) (line : SourceLine) : Option (Nat × Word) := do
  let index ← line.statement
  let w ← a.words[index]?
  return (index, w)

/-- The row of a line. -/
def row (a : Assembler) (line : SourceLine) : Option String :=
  let raw := Text.trim line.raw
  match a.placed line with
  | some (index, w) =>
    some (String.ofList
      (Hex.lower 3 index ++ [' ', ' ', ' '] ++ Hex.lower 4 w.toNat ++ [' ', ' '] ++ raw))
  | none =>
    if raw.isEmpty then none
    else some (String.ofList (List.replicate 12 ' ' ++ raw))

/-- The rows of the listing. -/
def listingRows (a : Assembler) : List String := header ++ a.lines.toList.filterMap a.row

/-- The listing. -/
def listing (a : Assembler) : String := "\n".intercalate a.listingRows

end IttyBitty.Assembly.Assembler
