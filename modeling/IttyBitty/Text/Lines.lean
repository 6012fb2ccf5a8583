import IttyBitty.Text.Hex

/-!
# Lines of a source text

A line ends at a line feed and nowhere else: form feeds and the Unicode line separators stay
inside it. One carriage return before the line feed belongs to the line end. The piece after the
last line feed is a line unless it is empty, so a text that ends in a line feed has no empty last
line, and the empty text has no line at all.
-/

namespace IttyBitty.Text

/-- Adds a character in front of a list of pieces: a line feed opens a piece, any other character
joins the first one. -/
def consPiece (c : Char) (pieces : List Text) : List Text :=
  if c = '\n' then [] :: pieces
  else match pieces with
    | [] => [[c]]
    | piece :: rest => (c :: piece) :: rest

/-- The pieces between line feeds; there is always at least one. -/
def pieces (t : Text) : List Text := t.foldr consPiece [[]]

/-- Drops the last piece if it is empty. -/
def dropLastEmpty (pieces : List Text) : List Text :=
  match pieces.getLast? with
  | some [] => pieces.dropLast
  | _ => pieces

/-- The line without the carriage return that ends it. -/
def dropReturn (line : Text) : Text :=
  match line.getLast? with
  | some '\r' => line.dropLast
  | _ => line

/-- The lines of a text. -/
def lines (t : Text) : List Text := (dropLastEmpty (pieces t)).map dropReturn

end IttyBitty.Text
