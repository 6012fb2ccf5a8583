import IttyBitty.Text.Quoted

/-!
# Tokens of IBCMC

IBCMC is a small language in the manner of C. Its tokens are decimal literals, names, three
keywords, operators and punctuation, and one token that marks the end. A token holds what it stands
for and where it starts; lines and columns are counted from one, and a list of tokens from
elsewhere may say anything about them.
-/

namespace IttyBitty.Ibcmc

/-- The kinds of tokens. -/
inductive Kind
  | intLiteral
  | ident
  | kwConst
  | kwInt
  | kwVoid
  | plus
  | minus
  | assign
  | plusAssign
  | minusAssign
  | semi
  | comma
  | leftParen
  | rightParen
  | leftBrace
  | rightBrace
  | endOfInput
  deriving DecidableEq, Repr

namespace Kind

/-- All kinds. -/
def all : List Kind :=
  [.intLiteral, .ident, .kwConst, .kwInt, .kwVoid, .plus, .minus, .assign, .plusAssign,
    .minusAssign, .semi, .comma, .leftParen, .rightParen, .leftBrace, .rightBrace, .endOfInput]

/-- The name of a kind in displays of tokens. -/
def name : Kind → String
  | .intLiteral => "INT_LITERAL"
  | .ident => "IDENT"
  | .kwConst => "KW_CONST"
  | .kwInt => "KW_INT"
  | .kwVoid => "KW_VOID"
  | .plus => "PLUS"
  | .minus => "MINUS"
  | .assign => "ASSIGN"
  | .plusAssign => "PLUS_ASSIGN"
  | .minusAssign => "MINUS_ASSIGN"
  | .semi => "SEMI"
  | .comma => "COMMA"
  | .leftParen => "LPAREN"
  | .rightParen => "RPAREN"
  | .leftBrace => "LBRACE"
  | .rightBrace => "RBRACE"
  | .endOfInput => "EOF"

/-- The spelling of the tokens of a kind that has only one, and the name of any other kind. -/
def spelling : Kind → String
  | .kwConst => "const"
  | .kwInt => "int"
  | .kwVoid => "void"
  | .plus => "+"
  | .minus => "-"
  | .assign => "="
  | .plusAssign => "+="
  | .minusAssign => "-="
  | .semi => ";"
  | .comma => ","
  | .leftParen => "("
  | .rightParen => ")"
  | .leftBrace => "\x7b"
  | .rightBrace => "\x7d"
  | kind => kind.name

/-- The kind of a name. -/
def ofName? (name : String) : Option Kind := all.find? fun kind => kind.name == name

end Kind

/-- What a token stands for: of the tokens of a text, a literal stands for a number and any other
for a text. -/
inductive Value
  | text (t : Text)
  | number (n : Int)
  deriving DecidableEq, Repr

namespace Value

/-- The characters of a value; a number has those of its decimal form. -/
def chars : Value → Text
  | .text t => t
  | .number n => (toString n).toList

/-- The value as it stands in a program. -/
def written (v : Value) : String := String.ofList v.chars

/-- The value as it stands in a display: texts are quoted. -/
def display : Value → String
  | .text t => String.ofList (RawText.quoted t)
  | .number n => toString n

end Value

/-- A token and the place of its first character. -/
structure Token where
  kind : Kind
  value : Value
  line : Int
  column : Int
  deriving DecidableEq, Repr

namespace Token

/-- The token with all its parts. -/
def display (t : Token) : String :=
  s!"Token({t.kind.name}, {t.value.display}, L{t.line}:{t.column})"

/-- The token as error messages name it. -/
def description (t : Token) : String :=
  match t.kind with
  | .ident => s!"ident({t.value.written})"
  | .intLiteral => s!"int_lit({t.value.written})"
  | .endOfInput => "end of input"
  | kind => kind.spelling

end Token

end IttyBitty.Ibcmc
