import IttyBitty.Ibcmc.Parser

/-!
# Reading tokens by their positions

The parser works on the tokens that are left and keeps the last token apart. Here the same
grammar is read by a position in the whole list, which the last token does not let pass. A
position can leave the list, a statement can be asked for at the end of the input, and loops
need limits; each of these is an outcome of its own (`Cursor.Halt`). A position in the list
stands for the tokens behind it (`Cursor.At`), and then each step of the reading is one of
the parser.
-/

namespace IttyBitty.Ibcmc

namespace Cursor

/-! ## Reading -/

/-- Why a reading ends without a result: a complaint about a token, a statement that starts at
the end of the input, a position without a token, or a limit that ran out. -/
inductive Halt
  | complaint (c : Complaint) (token : Token)
  | unexpectedEnd (token : Token)
  | outside (pos : Nat)
  | unfinished
  deriving DecidableEq, Repr

section Reading

variable (tokens : List Token)

/-- The token at a position. -/
def current (pos : Nat) : Except Halt Token :=
  match tokens[pos]? with
  | some t => .ok t
  | none => .error (.outside pos)

/-- The token behind a position; behind the last token it is the last one again. -/
def following (pos : Nat) : Except Halt Token :=
  if pos + 1 < tokens.length then current tokens (pos + 1) else current tokens (tokens.length - 1)

/-- Passes a token, unless it is the last one. -/
def advance (pos : Nat) : Except Halt (Token × Nat) := do
  let t ← current tokens pos
  return (t, if pos < tokens.length - 1 then pos + 1 else pos)

/-- A complaint about the current token. -/
def complain {α : Type} (c : Complaint) (pos : Nat) : Except Halt α := do
  let t ← current tokens pos
  throw (.complaint c t)

/-- Passes a token of the given kind and complains about any other. -/
def expect (kind : Kind) (c : Complaint) (pos : Nat) : Except Halt (Token × Nat) := do
  let t ← current tokens pos
  if t.kind = kind then advance tokens pos else throw (.complaint c t)

/-- Passes a token of the given kind, if there is one. -/
def accept (kind : Kind) (pos : Nat) : Except Halt (Bool × Nat) := do
  let t ← current tokens pos
  if t.kind = kind then
    let (_, pos) ← advance tokens pos
    return (true, pos)
  else return (false, pos)

/-! ### Expressions -/

/-- Reads a name or a literal. -/
def term (pos : Nat) : Except Halt (Expr × Nat) := do
  let t ← current tokens pos
  match Parser.term? t with
  | some e =>
    let (_, pos) ← advance tokens pos
    return (e, pos)
  | none => throw (.complaint .expectedTerm t)

/-- Reads operators and terms behind an expression. -/
def chain (lhs : Expr) : (limit : Nat) → Nat → Except Halt (Expr × Nat)
  | 0, _ => .error .unfinished
  | limit + 1, pos => do
    let t ← current tokens pos
    match Parser.operator? t.kind with
    | none => return (lhs, pos)
    | some op =>
      let (_, pos) ← advance tokens pos
      let (rhs, pos) ← term tokens pos
      chain (.binary op lhs rhs) limit pos

/-- Reads an expression and the semicolon behind it. No chain is longer than the list. -/
def exprSemi (pos : Nat) : Except Halt (Expr × Nat) := do
  let (lhs, pos) ← term tokens pos
  let (e, pos) ← chain tokens lhs tokens.length pos
  let (_, pos) ← expect tokens .semi (.expected .semi) pos
  return (e, pos)

/-! ### Declarations -/

/-- Reads the type and the name of a declaration. -/
def typed (isConst : Bool) (pos : Nat) : Except Halt (Decl × Nat) := do
  let t ← current tokens pos
  match Parser.type? t.kind with
  | none => throw (.complaint .expectedType t)
  | some type =>
    let (_, pos) ← advance tokens pos
    let (name, pos) ← expect tokens .ident .expectedName pos
    return (⟨isConst, type, name.value⟩, pos)

/-- Reads a declaration up to its name. -/
def decl (pos : Nat) : Except Halt (Decl × Nat) := do
  let (isConst, pos) ← accept tokens .kwConst pos
  typed tokens isConst pos

/-- Reads parameters, at least one; `done` holds those before, last first. -/
def paramsFrom (done : List Decl) : (limit : Nat) → Nat → Except Halt (List Decl × Nat)
  | 0, _ => .error .unfinished
  | limit + 1, pos => do
    let (param, pos) ← decl tokens pos
    if param.type = .void then complain tokens (.voidParameter param.name) pos
    else
      let (more, pos) ← accept tokens .comma pos
      if more then paramsFrom (param :: done) limit pos
      else return ((param :: done).reverse, pos)

/-- Reads the parameters between two parentheses; there may be none. -/
def params (limit pos : Nat) : Except Halt (List Decl × Nat) := do
  let t ← current tokens pos
  if t.kind = .rightParen then return ([], pos) else paramsFrom tokens [] limit pos

/-! ### Statements -/

/-- Reads what stands behind the declaration of a variable. -/
def variableEnd (d : Decl) (line : Int) (pos : Nat) : Except Halt (Stmt × Nat) :=
  if d.type = .void then complain tokens (.voidVariable d.name) pos
  else do
    let (ends, pos) ← accept tokens .semi pos
    if ends then return (.decl d line, pos)
    else
      let (assigned, pos) ← accept tokens .assign pos
      if assigned then
        let (value, pos) ← exprSemi tokens pos
        return (.init d value line, pos)
      else complain tokens .expectedDeclarationEnd pos

/-- Reads a statement that is an expression. -/
def plain (first : Token) (pos : Nat) : Except Halt (Stmt × Nat) := do
  let t ← current tokens pos
  if t.kind = .endOfInput then throw (.unexpectedEnd first)
  else
    let (value, pos) ← exprSemi tokens pos
    return (.expr value first.line, pos)

/-- Reads a statement that starts with a name. -/
def named (first : Token) (pos : Nat) : Except Halt (Stmt × Nat) := do
  let next ← following tokens pos
  if next.kind = .assign then
    let (_, pos) ← advance tokens pos
    let (_, pos) ← advance tokens pos
    let (value, pos) ← exprSemi tokens pos
    return (.assign first.value value first.line, pos)
  else if next.kind ∈ [.plusAssign, .minusAssign] then
    let (_, pos) ← advance tokens pos
    let (sign, pos) ← advance tokens pos
    let (value, pos) ← exprSemi tokens pos
    return (.compound first.value (if sign.kind = .plusAssign then .add else .sub) value
      first.line, pos)
  else plain tokens first pos

mutual

/-- Reads statements up to a closing brace or the end; `done` holds those before, last first. -/
def stmtsFrom (done : List Stmt) : (limit : Nat) → Nat → Except Halt (List Stmt × Nat)
  | 0, _ => .error .unfinished
  | limit + 1, pos => do
    let t ← current tokens pos
    if t.kind ∈ [.rightBrace, .endOfInput] then return (done.reverse, pos)
    else
      let (s, pos) ← stmt limit pos
      stmtsFrom (s :: done) limit pos
termination_by structural limit => limit

/-- Reads a statement. -/
def stmt : (limit : Nat) → Nat → Except Halt (Stmt × Nat)
  | 0, _ => .error .unfinished
  | limit + 1, pos => do
    let first ← current tokens pos
    let (empty, pos) ← accept tokens .semi pos
    if empty then return (.empty first.line, pos)
    else
      let t ← current tokens pos
      if t.kind ∈ [.kwConst, .kwInt, .kwVoid] then
        let (d, pos) ← decl tokens pos
        let (isFunction, pos) ← accept tokens .leftParen pos
        if isFunction then
          let (ds, pos) ← params tokens limit pos
          let (_, pos) ← expect tokens .rightParen (.expected .rightParen) pos
          let (_, pos) ← expect tokens .leftBrace (.expected .leftBrace) pos
          let bodyFirst ← current tokens pos
          let (body, pos) ← stmtsFrom [] limit pos
          let (_, pos) ← expect tokens .rightBrace (.expected .rightBrace) pos
          return (.function d ds body bodyFirst.line t.line, pos)
        else variableEnd tokens d t.line pos
      else
        let (isBlock, pos) ← accept tokens .leftBrace pos
        if isBlock then
          let _ ← current tokens pos
          let (body, pos) ← stmtsFrom [] limit pos
          let (_, pos) ← expect tokens .rightBrace (.expected .rightBrace) pos
          return (.block body first.line, pos)
        else if first.kind = .ident then named tokens first pos
        else plain tokens first pos
termination_by structural limit => limit

end

/-- Reads a program. -/
def program (limit : Nat) : Except Halt Block := do
  let first ← current tokens 0
  let (body, pos) ← stmtsFrom tokens [] limit 0
  let t ← current tokens pos
  if t.kind = .endOfInput then return ⟨body, first.line⟩
  else throw (.complaint .unmatchedBrace t)

end Reading

/-! ## Positions -/

variable {us ts : List Token} {last : Token} {pos : Nat}

/-- Behind a position the others of the tokens are the given ones. -/
structure At (us : List Token) (pos : Nat) (ts : List Token) : Prop where
  le : pos ≤ us.length
  drop : us.drop pos = ts

theorem At.start (us : List Token) : At us 0 us := ⟨Nat.zero_le _, rfl⟩

theorem At.getElem? (h : At us pos ts) : (us ++ [last])[pos]? = some (ts.headD last) := by
  obtain ⟨hle, rfl⟩ := h
  rcases Nat.lt_or_eq_of_le hle with hlt | rfl
  · rw [List.getElem?_append_left hlt, List.getElem?_eq_getElem hlt,
      List.drop_eq_getElem_cons hlt]
    rfl
  · rw [List.getElem?_concat_length, List.drop_length]
    rfl

theorem At.mem (h : At us pos ts) : ts.headD last ∈ us ++ [last] :=
  List.mem_of_getElem? h.getElem?

theorem At.current_eq (h : At us pos ts) :
    current (us ++ [last]) pos = .ok (ts.headD last) := by
  rw [current, h.getElem?]

/-- The position behind, unless it is that of the last token. -/
theorem At.next (h : At us pos ts) (last : Token) :
    At us (if pos < (us ++ [last]).length - 1 then pos + 1 else pos) ts.tail := by
  obtain ⟨hle, rfl⟩ := h
  rw [List.length_append, List.length_singleton, Nat.add_sub_cancel]
  split
  · exact ⟨by omega, List.tail_drop.symm⟩
  · refine ⟨hle, ?_⟩
    rw [List.drop_eq_nil_of_le (by omega), List.tail_nil]

theorem At.following_eq (h : At us pos ts) :
    following (us ++ [last]) pos = .ok (ts.tail.headD last) := by
  rw [following, List.length_append, List.length_singleton, Nat.add_sub_cancel]
  have hnext := h.next last
  rw [List.length_append, List.length_singleton, Nat.add_sub_cancel] at hnext
  split
  · rw [if_pos (by omega)] at hnext
    exact hnext.current_eq
  · obtain rfl : pos = us.length := by have := h.le; omega
    rw [if_neg (by omega)] at hnext
    exact hnext.current_eq

theorem At.advance_eq (h : At us pos ts) (last : Token) :
    ∃ pos', advance (us ++ [last]) pos = .ok (ts.headD last, pos') ∧ At us pos' ts.tail := by
  refine ⟨_, ?_, h.next last⟩
  rw [advance, h.current_eq]
  rfl

theorem At.accept_eq (h : At us pos ts) {kind : Kind} (hkind : Parser.kindAt last ts = kind) :
    ∃ pos', accept (us ++ [last]) kind pos = .ok (true, pos') ∧ At us pos' ts.tail := by
  obtain ⟨pos', hadvance, h'⟩ := h.advance_eq last
  refine ⟨pos', ?_, h'⟩
  rw [accept, h.current_eq]
  show (if Parser.kindAt last ts = kind then _ else _) = _
  rw [if_pos hkind, hadvance]
  rfl

theorem At.accept_ne (h : At us pos ts) {kind : Kind} (hkind : Parser.kindAt last ts ≠ kind) :
    accept (us ++ [last]) kind pos = .ok (false, pos) := by
  rw [accept, h.current_eq]
  exact if_neg hkind

theorem At.expect_eq (h : At us pos ts) {kind : Kind} (c : Complaint)
    (hkind : Parser.kindAt last ts = kind) :
    ∃ pos', expect (us ++ [last]) kind c pos = .ok (ts.headD last, pos') ∧
      At us pos' ts.tail := by
  obtain ⟨pos', hadvance, h'⟩ := h.advance_eq last
  refine ⟨pos', ?_, h'⟩
  rw [expect, h.current_eq]
  show (if Parser.kindAt last ts = kind then _ else _) = _
  rw [if_pos hkind, hadvance]

theorem At.expect_ne (h : At us pos ts) {kind : Kind} (c : Complaint)
    (hkind : Parser.kindAt last ts ≠ kind) :
    expect (us ++ [last]) kind c pos = .error (.complaint c (ts.headD last)) := by
  rw [expect, h.current_eq]
  exact if_neg hkind

theorem At.term_eq (h : At us pos ts) {e : Expr} (he : Parser.term? (ts.headD last) = some e) :
    ∃ pos', term (us ++ [last]) pos = .ok (e, pos') ∧ At us pos' ts.tail := by
  obtain ⟨pos', hadvance, h'⟩ := h.advance_eq last
  refine ⟨pos', ?_, h'⟩
  rw [term, h.current_eq]
  show (match Parser.term? (ts.headD last) with | some e => _ | none => _) = _
  rw [he]
  show advance (us ++ [last]) pos >>= _ = _
  rw [hadvance]
  rfl

theorem At.term_none (h : At us pos ts) (hnone : Parser.term? (ts.headD last) = none) :
    term (us ++ [last]) pos = .error (.complaint .expectedTerm (ts.headD last)) := by
  rw [term, h.current_eq]
  show (match Parser.term? (ts.headD last) with | some e => _ | none => _) = _
  rw [hnone]
  rfl

end Cursor

end IttyBitty.Ibcmc
