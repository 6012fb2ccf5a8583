import IttyBitty.Ibcmc.Token
import IttyBitty.Text.Decimal

/-!
# The lexer of IBCMC

A text is cut from left to right into lexemes, each as long as possible: separators, which are
space characters and comments of two slashes up to the end of the line, and the texts of tokens. A
literal has to fit in a word, and it has to be short enough to be read at all. What starts no lexeme
is an unknown character.

A lexer can be asked for tokens again after an error. It goes on where it stopped: in front of an
unknown character, so that the same error comes again, or behind a literal that is too large or too
long.
-/

namespace IttyBitty.Ibcmc

/-! ## Lexemes -/

/-- Whether a character separates tokens. -/
def isSpace (c : Char) : Bool := c = ' ' || c = '\t' || c = '\r' || c = '\n'

/-- Whether a character is an ASCII letter. -/
def isLetter (c : Char) : Bool := ('a' ≤ c && c ≤ 'z') || ('A' ≤ c && c ≤ 'Z')

/-- Whether a character can stand in a name behind its first letter. -/
def isNameChar (c : Char) : Bool := isLetter c || Decimal.isDigit c

/-- Why a literal has no token: its value does not fit in a word, or it has more digits than are
read, whatever its value. -/
inductive LiteralFault
  | tooLarge
  | tooLong
  deriving DecidableEq, Repr

/-- What a lexeme is. -/
inductive Meaning
  | separator
  | token (kind : Kind) (value : Value)
  | badLiteral (fault : LiteralFault)
  | unknown
  deriving DecidableEq, Repr

/-- The start of a text: what it is, its characters, and the characters after it. -/
structure Lexeme where
  meaning : Meaning
  chars : Text
  rest : Text
  deriving DecidableEq, Repr

/-- The kind of a word. -/
def wordKind (word : Text) : Kind :=
  if word = Kind.kwConst.spelling.toList then .kwConst
  else if word = Kind.kwInt.spelling.toList then .kwInt
  else if word = Kind.kwVoid.spelling.toList then .kwVoid
  else .ident

/-- What a run of digits is. -/
def literalMeaning (digits : Text) : Meaning :=
  match Decimal.number? digits with
  | none => .badLiteral .tooLong
  | some n => if n ≤ 65535 then .token .intLiteral (.number n) else .badLiteral .tooLarge

/-- The operator or punctuation at the start of a text, the longer of two that start alike. -/
def operatorKind? (c : Char) (rest : Text) : Option (Kind × Text × Text) :=
  match c, rest with
  | '+', '=' :: rest => some (.plusAssign, ['+', '='], rest)
  | '-', '=' :: rest => some (.minusAssign, ['-', '='], rest)
  | '+', rest => some (.plus, ['+'], rest)
  | '-', rest => some (.minus, ['-'], rest)
  | '=', rest => some (.assign, ['='], rest)
  | ';', rest => some (.semi, [';'], rest)
  | ',', rest => some (.comma, [','], rest)
  | '(', rest => some (.leftParen, ['('], rest)
  | ')', rest => some (.rightParen, [')'], rest)
  | '\x7b', rest => some (.leftBrace, ['\x7b'], rest)
  | '\x7d', rest => some (.rightBrace, ['\x7d'], rest)
  | _, _ => none

/-- The lexeme that starts with a character. -/
def lexeme (c : Char) (rest : Text) : Lexeme :=
  if isSpace c then ⟨.separator, [c], rest⟩
  else if c = '/' && rest.head? = some '/' then
    ⟨.separator, c :: rest.takeWhile (· != '\n'), rest.dropWhile (· != '\n')⟩
  else if Decimal.isDigit c then
    let digits := c :: rest.takeWhile Decimal.isDigit
    ⟨literalMeaning digits, digits, rest.dropWhile Decimal.isDigit⟩
  else if isLetter c then
    let word := c :: rest.takeWhile isNameChar
    ⟨.token (wordKind word) (.text word), word, rest.dropWhile isNameChar⟩
  else
    match operatorKind? c rest with
    | some (kind, chars, rest) => ⟨.token kind (.text chars), chars, rest⟩
    | none => ⟨.unknown, [c], rest⟩

/-! ## Positions -/

/-- A place in a text: the number of characters before it, its line and its column. -/
structure Position where
  offset : Nat := 0
  line : Nat := 1
  column : Nat := 1
  deriving DecidableEq, Repr

namespace Position

/-- The place behind a character. -/
def after (p : Position) (c : Char) : Position :=
  if c = '\n' then ⟨p.offset + 1, p.line + 1, 1⟩ else ⟨p.offset + 1, p.line, p.column + 1⟩

/-- The place behind some characters. -/
def afterText (p : Position) (t : Text) : Position := t.foldl after p

end Position

/-! ## Lexing -/

/-- Why a text has no tokens from some place on. -/
inductive LexError
  | badLiteral (fault : LiteralFault) (digits : Text) (place : Position)
  | unknownCharacter (c : Char) (place : Position)
  deriving DecidableEq, Repr

namespace LexError

/-- Where the error is. -/
def place : LexError → Position
  | .badLiteral _ _ place => place
  | .unknownCharacter _ place => place

/-- The text of an error, which says its place; the lexer has no words for a literal that is too
long. -/
def message (e : LexError) : String :=
  let placed (detail : String) := s!"Lexer error at L{e.place.line}:{e.place.column}: {detail}"
  match e with
  | .badLiteral .tooLarge digits _ =>
    placed s!"integer literal {String.ofList digits} does not fit in a word"
  | .badLiteral .tooLong _ _ => ""
  | .unknownCharacter c _ => placed ("unknown token `" ++ String.ofList [c] ++ "`")

end LexError

/-- A lexer: the text that is left and its place in the whole text. -/
structure Lexer where
  rest : Text
  place : Position := {}
  deriving DecidableEq, Repr

/-- What a lexer was asked for: the lexer after it, the tokens it found, and the error it stopped
at. Without an error the last token is the one that marks the end. -/
structure Lexed where
  lexer : Lexer
  tokens : List Token
  error : Option LexError
  deriving DecidableEq, Repr

namespace Lexer

/-- A token that starts where the lexer stands. -/
def token (l : Lexer) (kind : Kind) (value : Value) : Token :=
  ⟨kind, value, l.place.line, l.place.column⟩

/-- Cuts lexemes from the text, at most as many as `limit`; `done` holds the tokens found before,
last first. Every lexeme has a character, so the length of the text is limit enough. -/
def tokensFrom (done : List Token) : (limit : Nat) → Lexer → Lexed
  | 0, l => ⟨l, (l.token .endOfInput (.text []) :: done).reverse, none⟩
  | limit + 1, l =>
    match l.rest with
    | [] => ⟨l, (l.token .endOfInput (.text []) :: done).reverse, none⟩
    | c :: rest =>
      let cut := lexeme c rest
      let next : Lexer := ⟨cut.rest, l.place.afterText cut.chars⟩
      match cut.meaning with
      | .separator => tokensFrom done limit next
      | .token kind value => tokensFrom (l.token kind value :: done) limit next
      | .badLiteral fault => ⟨next, done.reverse, some (.badLiteral fault cut.chars l.place)⟩
      | .unknown => ⟨l, done.reverse, some (.unknownCharacter c l.place)⟩

/-- The tokens up to the end of the text or the first error. -/
def tokenize (l : Lexer) : Lexed := tokensFrom [] l.rest.length l

end Lexer

/-- The tokens of a text. -/
def tokenize (t : Text) : Except LexError (List Token) :=
  let lexed := Lexer.tokenize { rest := t }
  match lexed.error with
  | none => .ok lexed.tokens
  | some error => .error error

end IttyBitty.Ibcmc
