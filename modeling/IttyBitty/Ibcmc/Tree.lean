import IttyBitty.Ibcmc.Token

/-!
# Syntax trees of IBCMC

A program is a block of statements. Every statement but a block says on which line it starts; a
block gives the line of its opening brace, and the block that is a program or the body of a
function the line of the first token inside it. Names and literals are the values of their tokens.
-/

namespace IttyBitty.Ibcmc

/-- The types: `int` is a word, `void` only the result of a function that has none. -/
inductive TypeName
  | int
  | void
  deriving DecidableEq, Repr

/-- The spelling of a type. -/
def TypeName.spelling : TypeName → String
  | .int => "int"
  | .void => "void"

/-- The two operators. -/
inductive BinOp
  | add
  | sub
  deriving DecidableEq, Repr

/-- The spelling of an operator. -/
def BinOp.spelling : BinOp → String
  | .add => "+"
  | .sub => "-"

/-- A declared name with its type. -/
structure Decl where
  isConst : Bool
  type : TypeName
  name : Value
  deriving DecidableEq, Repr

/-- A declaration as it is written. -/
def Decl.text (d : Decl) : String :=
  let start := if d.isConst then "const " else ""
  s!"{start}{d.type.spelling} {d.name.written}"

/-- Expressions. -/
inductive Expr
  | literal (value : Value)
  | ident (name : Value)
  | binary (op : BinOp) (lhs rhs : Expr)
  deriving DecidableEq, Repr

/-- An expression with parentheses around every operator. -/
def Expr.text : Expr → String
  | .literal value => value.written
  | .ident name => name.written
  | .binary op lhs rhs => s!"({lhs.text} {op.spelling} {rhs.text})"

/-- Statements. -/
inductive Stmt
  | block (body : List Stmt) (line : Int)
  | assign (name : Value) (value : Expr) (line : Int)
  | compound (name : Value) (op : BinOp) (value : Expr) (line : Int)
  | decl (d : Decl) (line : Int)
  | init (d : Decl) (value : Expr) (line : Int)
  | function (d : Decl) (params : List Decl) (body : List Stmt) (bodyLine : Int) (line : Int)
  | expr (value : Expr) (line : Int)
  | empty (line : Int)
  deriving Repr

/-- A program. -/
structure Block where
  body : List Stmt
  line : Int
  deriving Repr

end IttyBitty.Ibcmc
