import IttyBitty.Text.Raw

/-!
# Splitting a command line into words

Words are separated by spaces, tabs, carriage returns and line feeds. Between single quotes every
character stands for itself. Between double quotes a backslash takes away the meaning of a double
quote or a backslash after it, and is kept before anything else. Outside quotes a backslash takes
the next character as it is. Quoted and unquoted parts that touch make one word, and a pair of
quotes with nothing in it makes a word too, though an empty one.

The line is read by a machine with one state per place a character can stand in.
-/

namespace IttyBitty.ShellWords

/-- Why a line has no words. -/
inductive Error
  | unclosedQuote
  | nothingEscaped
  deriving DecidableEq, Repr

/-- The text of an error. -/
def Error.message : Error → String
  | .unclosedQuote => "No closing quotation"
  | .nothingEscaped => "No escaped character"

/-- Where the next character stands: between words, inside a word, inside quotes of one kind, or
after a backslash in or outside double quotes. -/
inductive Place
  | between
  | word
  | singleQuotes
  | doubleQuotes
  | escaped
  | escapedInQuotes
  deriving DecidableEq, Repr

/-- Whether a character separates words. -/
def isSeparator (c : CodePoint) : Bool :=
  c = .char ' ' ∨ c = .char '\t' ∨ c = .char '\r' ∨ c = .char '\n'

/-- Reads on from a place; `word` is the word under construction and `done` the words before it,
both last first. -/
def scan (done : List RawText) (word : RawText) : Place → RawText → Except Error (List RawText)
  | .between, [] => .ok done.reverse
  | .word, [] => .ok (word.reverse :: done).reverse
  | .singleQuotes, [] => .error .unclosedQuote
  | .doubleQuotes, [] => .error .unclosedQuote
  | .escaped, [] => .error .nothingEscaped
  | .escapedInQuotes, [] => .error .nothingEscaped
  | .between, c :: rest =>
    if isSeparator c then scan done [] .between rest
    else if c = .char '\\' then scan done [] .escaped rest
    else if c = .char '\'' then scan done [] .singleQuotes rest
    else if c = .char '"' then scan done [] .doubleQuotes rest
    else scan done [c] .word rest
  | .word, c :: rest =>
    if isSeparator c then scan (word.reverse :: done) [] .between rest
    else if c = .char '\\' then scan done word .escaped rest
    else if c = .char '\'' then scan done word .singleQuotes rest
    else if c = .char '"' then scan done word .doubleQuotes rest
    else scan done (c :: word) .word rest
  | .singleQuotes, c :: rest =>
    if c = .char '\'' then scan done word .word rest
    else scan done (c :: word) .singleQuotes rest
  | .doubleQuotes, c :: rest =>
    if c = .char '"' then scan done word .word rest
    else if c = .char '\\' then scan done word .escapedInQuotes rest
    else scan done (c :: word) .doubleQuotes rest
  | .escaped, c :: rest => scan done (c :: word) .word rest
  | .escapedInQuotes, c :: rest =>
    if c = .char '"' ∨ c = .char '\\' then scan done (c :: word) .doubleQuotes rest
    else scan done (c :: .char '\\' :: word) .doubleQuotes rest

/-- The words of a line. -/
def split (line : RawText) : Except Error (List RawText) := scan [] [] .between line

end IttyBitty.ShellWords
