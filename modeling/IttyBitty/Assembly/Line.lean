import IttyBitty.Text.Blank

/-!
# Assembly lines

A line may hold a label, a statement and a comment, in that order. A comment starts at the first
two slashes, wherever they stand. What comes before it is split into words; if the first word has a
colon, what stands before the first colon is the label, and what stands after it, unless that is
empty, is the first token of the statement.
-/

namespace IttyBitty.Assembly

/-- The label and the statement tokens of a line. -/
structure Line where
  label : Option Text
  tokens : List Text
  deriving DecidableEq, Repr

/-- Adds a character in front of a text whose comment has been cut off; the flag says whether the
text, uncut, starts with a slash. -/
def consCode (c : Char) (rest : Text × Bool) : Text × Bool :=
  if c = '/' && rest.2 then ([], true) else (c :: rest.1, c = '/')

/-- The part of a line before its comment. -/
def code (raw : Text) : Text := (raw.foldr consCode ([], false)).1

namespace Line

/-- The line that some words make; there is none if the label is empty. -/
def ofWords? : List Text → Option Line
  | [] => some ⟨none, []⟩
  | first :: rest =>
    match first.span (· != ':') with
    | (_, []) => some ⟨none, first :: rest⟩
    | (name, _ :: glued) =>
      if name.isEmpty then none
      else some ⟨some name, if glued.isEmpty then rest else glued :: rest⟩

/-- The parts of a raw line. -/
def parse? (raw : Text) : Option Line := ofWords? (Text.words (code raw))

end Line

end IttyBitty.Assembly
