import IttyBitty.Ibcmc.Lexer
import IttyBitty.Ibcmc.Tree

/-!
# The parser of IBCMC

The grammar, where `decl` is `[const] (int | void) name` and `expr` is a chain of names and
literals with operators that associate to the left:

    program  block end
    block    stmt*
    stmt     ;  |  decl ;  |  decl = expr ;  |  decl ( [decl (, decl)*] ) { block }
             |  name = expr ;  |  name += expr ;  |  name -= expr ;  |  { block }  |  expr ;

Only a function can be declared `void`. One token decides between the forms, for a name two.

Tokens are read from a list whose last token is never passed: when the others are used up, it is
the current token for good. The parser therefore works on the other tokens and keeps the last one
apart. If that is a semicolon or an opening brace there is no end to the statements.
-/

namespace IttyBitty.Ibcmc

/-- What is wrong at a token. -/
inductive Complaint
  | expected (kind : Kind)
  | expectedName
  | expectedType
  | expectedTerm
  | expectedDeclarationEnd
  | unmatchedBrace
  | voidVariable (name : Value)
  | voidParameter (name : Value)
  deriving DecidableEq, Repr

/-- The text of a complaint. -/
def Complaint.message : Complaint → String
  | .expected kind => "expected `" ++ kind.spelling ++ "`"
  | .expectedName => "expected identifier"
  | .expectedType => "expected type"
  | .expectedTerm => "expected expression term"
  | .expectedDeclarationEnd => "expected `;`, `=`, or `(`"
  | .unmatchedBrace => "unexpected `\x7d` at top level"
  | .voidVariable name => s!"variable '{name.written}' declared void"
  | .voidParameter name => s!"parameter '{name.written}' declared void"

/-- Why a list of tokens has no tree: a complaint about a token, a list with no token in it, or
statements without end. -/
inductive ParseError
  | complaint (c : Complaint) (token : Token)
  | noTokens
  | endless
  deriving DecidableEq, Repr

/-- The text of an error. -/
def ParseError.message : ParseError → String
  | .complaint c token =>
    s!"Parse error at L{token.line}:{token.column}: {c.message} (got {token.description})"
  | .noTokens => "no tokens"
  | .endless => "endless program"

namespace Parser

/-- A complaint about the current token. -/
def complain (last : Token) (ts : List Token) (c : Complaint) : Except ParseError α :=
  .error (.complaint c (ts.headD last))

/-- The kind of the current token. -/
def kindAt (last : Token) (ts : List Token) : Kind := (ts.headD last).kind

/-- Passes a token of the given kind. -/
def expect (last : Token) (kind : Kind) (ts : List Token) : Except ParseError (List Token) :=
  if kindAt last ts = kind then .ok ts.tail else complain last ts (.expected kind)

/-! ## Expressions -/

/-- The operator of a kind. -/
def operator? : Kind → Option BinOp
  | .plus => some .add
  | .minus => some .sub
  | _ => none

/-- The expression that one token makes. -/
def term? (t : Token) : Option Expr :=
  match t.kind with
  | .ident => some (.ident t.value)
  | .intLiteral => some (.literal t.value)
  | _ => none

/-- Reads operators and terms behind an expression. The token behind the operator decides whether
there is a term, and no term is an operator, so a chain that has run into the last token is over. -/
def chain (last : Token) (lhs : Expr) : List Token → Except ParseError (Expr × List Token)
  | [] => if (operator? last.kind).isSome then complain last [] .expectedTerm else .ok (lhs, [])
  | t :: rest =>
    match operator? t.kind with
    | none => .ok (lhs, t :: rest)
    | some op =>
      match rest with
      | [] =>
        match term? last with
        | some rhs => .ok (.binary op lhs rhs, [])
        | none => complain last [] .expectedTerm
      | u :: rest =>
        match term? u with
        | some rhs => chain last (.binary op lhs rhs) rest
        | none => complain last (u :: rest) .expectedTerm

/-- Reads an expression. -/
def expr (last : Token) (ts : List Token) : Except ParseError (Expr × List Token) :=
  match term? (ts.headD last) with
  | some e => chain last e ts.tail
  | none => complain last ts .expectedTerm

/-- Reads an expression and the semicolon behind it. -/
def exprSemi (last : Token) (ts : List Token) : Except ParseError (Expr × List Token) := do
  let (e, ts) ← expr last ts
  let ts ← expect last .semi ts
  return (e, ts)

/-! ## Declarations -/

/-- The type of a kind. -/
def type? : Kind → Option TypeName
  | .kwInt => some .int
  | .kwVoid => some .void
  | _ => none

/-- Reads a declaration up to its name. -/
def decl (last : Token) (ts : List Token) : Except ParseError (Decl × List Token) :=
  let isConst := kindAt last ts == .kwConst
  let ts := if isConst then ts.tail else ts
  match type? (kindAt last ts) with
  | none => complain last ts .expectedType
  | some type =>
    let name := ts.tail.headD last
    if name.kind = .ident then .ok (⟨isConst, type, name.value⟩, ts.tail.tail)
    else complain last ts.tail .expectedName

/-- Reads parameters, at least one and at most as many as `limit`; `done` holds those before, last
first. -/
def paramsFrom (last : Token) (done : List Decl) :
    (limit : Nat) → List Token → Except ParseError (List Decl × List Token)
  | 0, _ => .error .endless
  | limit + 1, ts => do
    let (param, ts) ← decl last ts
    if param.type = .void then complain last ts (.voidParameter param.name)
    else if kindAt last ts = .comma then paramsFrom last (param :: done) limit ts.tail
    else return ((param :: done).reverse, ts)

/-- Reads the parameters between two parentheses; there may be none. -/
def params (last : Token) (limit : Nat) (ts : List Token) :
    Except ParseError (List Decl × List Token) :=
  if kindAt last ts = .rightParen then .ok ([], ts) else paramsFrom last [] limit ts

/-! ## Statements -/

/-- Reads what stands behind the declaration of a variable. -/
def variableEnd (last : Token) (d : Decl) (line : Int) (ts : List Token) :
    Except ParseError (Stmt × List Token) :=
  if d.type = .void then complain last ts (.voidVariable d.name)
  else
    match kindAt last ts with
    | .semi => .ok (.decl d line, ts.tail)
    | .assign => do
      let (value, ts) ← exprSemi last ts.tail
      return (.init d value line, ts)
    | _ => complain last ts .expectedDeclarationEnd

/-- Reads a statement that starts with a name. -/
def named (last : Token) (ts : List Token) : Except ParseError (Stmt × List Token) :=
  let first := ts.headD last
  let compound (op : BinOp) : Except ParseError (Stmt × List Token) := do
    let (value, ts) ← exprSemi last ts.tail.tail
    return (.compound first.value op value first.line, ts)
  match kindAt last ts.tail with
  | .assign => do
    let (value, ts) ← exprSemi last ts.tail.tail
    return (.assign first.value value first.line, ts)
  | .plusAssign => compound .add
  | .minusAssign => compound .sub
  | _ => do
    let (value, ts) ← exprSemi last ts
    return (.expr value first.line, ts)

mutual

/-- Reads statements up to a closing brace or the end; `done` holds those before, last first. -/
def stmtsFrom (last : Token) (done : List Stmt) :
    (limit : Nat) → List Token → Except ParseError (List Stmt × List Token)
  | 0, _ => .error .endless
  | limit + 1, ts =>
    match kindAt last ts with
    | .rightBrace | .endOfInput => .ok (done.reverse, ts)
    | _ => do
      let (s, ts) ← stmt last limit ts
      stmtsFrom last (s :: done) limit ts
termination_by structural limit => limit

/-- Reads a statement. -/
def stmt (last : Token) : (limit : Nat) → List Token → Except ParseError (Stmt × List Token)
  | 0, _ => .error .endless
  | limit + 1, ts =>
    let first := ts.headD last
    match first.kind with
    | .semi => .ok (.empty first.line, ts.tail)
    | .kwConst | .kwInt | .kwVoid => do
      let (d, ts) ← decl last ts
      if kindAt last ts = .leftParen then
        let (params, ts) ← params last limit ts.tail
        let ts ← expect last .rightParen ts
        let ts ← expect last .leftBrace ts
        let bodyLine := (ts.headD last).line
        let (body, ts) ← stmtsFrom last [] limit ts
        let ts ← expect last .rightBrace ts
        return (.function d params body bodyLine first.line, ts)
      else variableEnd last d first.line ts
    | .leftBrace => do
      let (body, ts) ← stmtsFrom last [] limit ts.tail
      let ts ← expect last .rightBrace ts
      return (.block body first.line, ts)
    | .ident => named last ts
    | _ => do
      let (value, ts) ← exprSemi last ts
      return (.expr value first.line, ts)
termination_by structural limit => limit

end

/-! ## Programs -/

/-- Reads a program from the tokens before the last one. -/
def program (last : Token) (ts : List Token) : Except ParseError Block := do
  let line := (ts.headD last).line
  let (body, ts) ← stmtsFrom last [] (2 * ts.length + 4) ts
  if kindAt last ts = .endOfInput then return ⟨body, line⟩
  else complain last ts .unmatchedBrace

end Parser

/-- The tree of a list of tokens. -/
def parseTokens (tokens : List Token) : Except ParseError Block :=
  match tokens.getLast? with
  | none => .error .noTokens
  | some last => Parser.program last tokens.dropLast

/-- Why a text has no tree. -/
inductive FrontEndError
  | lexical (error : LexError)
  | grammatical (error : ParseError)
  deriving DecidableEq, Repr

/-- The text of an error. -/
def FrontEndError.message : FrontEndError → String
  | .lexical error => error.message
  | .grammatical error => error.message

/-- The tree of a text. -/
def parse (t : Text) : Except FrontEndError Block :=
  match tokenize t with
  | .error error => .error (.lexical error)
  | .ok tokens => (parseTokens tokens).mapError .grammatical

end IttyBitty.Ibcmc
