import IttyBitty.Ibcmc.Tree

/-!
# The grammar of IBCMC

Which tokens a tree is written with, said without a parser. There is one
constructor for every form of the grammar; names, literals, types and operators
are those of the tokens, and a statement is on the line of its first token.

Flattening a tree writes it down again: its tokens have the kinds and values of
those it was derived from (`IsStmts.flatten_eq`).
-/

namespace IttyBitty.Ibcmc

/-! ## Kinds of tokens -/

/-- The kind of a type's token. -/
def TypeName.kind : TypeName → Kind
  | .int => .kwInt
  | .void => .kwVoid

/-- The kind of an operator's token. -/
def BinOp.kind : BinOp → Kind
  | .add => .plus
  | .sub => .minus

/-- The kind of the token that assigns with an operator. -/
def BinOp.assignKind : BinOp → Kind
  | .add => .plusAssign
  | .sub => .minusAssign

/-- The line of the first of some tokens. -/
def lineOf (ts : List Token) : Int := (ts.head?.map Token.line).getD 0

/-! ## Derivations -/

/-- A token is a term. -/
inductive IsTerm : Token → Expr → Prop
  | ident {t : Token} (hident : t.kind = .ident) : IsTerm t (.ident t.value)
  | literal {t : Token} (hliteral : t.kind = .intLiteral) : IsTerm t (.literal t.value)

/-- Tokens are an expression. What is right of an operator is a term, so chains nest
to the left. -/
inductive IsExpr : List Token → Expr → Prop
  | term {t : Token} {e : Expr} (hterm : IsTerm t e) : IsExpr [t] e
  | binary {ts : List Token} {sign t : Token} {lhs rhs : Expr} {op : BinOp}
      (hlhs : IsExpr ts lhs) (hsign : sign.kind = op.kind) (hrhs : IsTerm t rhs) :
      IsExpr (ts ++ [sign, t]) (.binary op lhs rhs)

/-- Tokens are a declaration. -/
inductive IsDecl : List Token → Decl → Prop
  | plain {t name : Token} {type : TypeName} (htype : t.kind = type.kind)
      (hname : name.kind = .ident) : IsDecl [t, name] ⟨false, type, name.value⟩
  | const {c t name : Token} {type : TypeName} (hconst : c.kind = .kwConst)
      (htype : t.kind = type.kind) (hname : name.kind = .ident) :
      IsDecl [c, t, name] ⟨true, type, name.value⟩

/-- Tokens are parameters with commas between them, at least one. -/
inductive IsParams : List Token → List Decl → Prop
  | one {ts : List Token} {d : Decl} (hdecl : IsDecl ts d) (hvoid : d.type ≠ .void) :
      IsParams ts [d]
  | more {ts us : List Token} {comma : Token} {d : Decl} {ds : List Decl} (hdecl : IsDecl ts d)
      (hvoid : d.type ≠ .void) (hcomma : comma.kind = .comma) (hmore : IsParams us ds) :
      IsParams (ts ++ comma :: us) (d :: ds)

/-- Tokens are what stands between the parentheses of a function. -/
inductive IsParamList : List Token → List Decl → Prop
  | none : IsParamList [] []
  | some {ts : List Token} {ds : List Decl} (hparams : IsParams ts ds) : IsParamList ts ds

mutual

/-- Tokens are a statement. Only a function can be declared `void`. -/
inductive IsStmt : List Token → Stmt → Prop
  | empty {semi : Token} (hsemi : semi.kind = .semi) : IsStmt [semi] (.empty semi.line)
  | decl {ts : List Token} {semi : Token} {d : Decl} (hdecl : IsDecl ts d)
      (hvoid : d.type ≠ .void) (hsemi : semi.kind = .semi) :
      IsStmt (ts ++ [semi]) (.decl d (lineOf ts))
  | init {ts us : List Token} {equals semi : Token} {d : Decl} {e : Expr} (hdecl : IsDecl ts d)
      (hvoid : d.type ≠ .void) (hequals : equals.kind = .assign) (hvalue : IsExpr us e)
      (hsemi : semi.kind = .semi) :
      IsStmt (ts ++ equals :: (us ++ [semi])) (.init d e (lineOf ts))
  | function {ts us vs : List Token} {left right opening closing : Token} {d : Decl}
      {ds : List Decl} {body : List Stmt} (hdecl : IsDecl ts d) (hleft : left.kind = .leftParen)
      (hparams : IsParamList us ds) (hright : right.kind = .rightParen)
      (hopening : opening.kind = .leftBrace) (hbody : IsStmts vs body)
      (hclosing : closing.kind = .rightBrace) :
      IsStmt (ts ++ left :: (us ++ right :: opening :: (vs ++ [closing])))
        (.function d ds body (lineOf (vs ++ [closing])) (lineOf ts))
  | assign {us : List Token} {name equals semi : Token} {e : Expr} (hname : name.kind = .ident)
      (hequals : equals.kind = .assign) (hvalue : IsExpr us e) (hsemi : semi.kind = .semi) :
      IsStmt (name :: equals :: (us ++ [semi])) (.assign name.value e name.line)
  | compound {us : List Token} {name sign semi : Token} {op : BinOp} {e : Expr}
      (hname : name.kind = .ident) (hsign : sign.kind = op.assignKind) (hvalue : IsExpr us e)
      (hsemi : semi.kind = .semi) :
      IsStmt (name :: sign :: (us ++ [semi])) (.compound name.value op e name.line)
  | block {vs : List Token} {opening closing : Token} {body : List Stmt}
      (hopening : opening.kind = .leftBrace) (hbody : IsStmts vs body)
      (hclosing : closing.kind = .rightBrace) :
      IsStmt (opening :: (vs ++ [closing])) (.block body opening.line)
  | expr {us : List Token} {semi : Token} {e : Expr} (hvalue : IsExpr us e)
      (hsemi : semi.kind = .semi) : IsStmt (us ++ [semi]) (.expr e (lineOf us))

/-- Tokens are statements, one after another. -/
inductive IsStmts : List Token → List Stmt → Prop
  | nil : IsStmts [] []
  | cons {ts us : List Token} {s : Stmt} {body : List Stmt} (hstmt : IsStmt ts s)
      (hrest : IsStmts us body) : IsStmts (ts ++ us) (s :: body)

end

/-! ## Flattening -/

/-- What a token of this kind says if the kind has only one spelling. -/
def Kind.content (kind : Kind) : Kind × Value := (kind, .text kind.spelling.toList)

/-- What a token says: its kind, and its own value if it is a name or a literal, or
else its spelling. -/
def Token.content (t : Token) : Kind × Value :=
  if t.kind ∈ [.ident, .intLiteral] then (t.kind, t.value) else t.kind.content

/-- The token is valued by its spelling if its kind has only one, as are those of a
text. -/
def Token.Spelled (t : Token) : Prop :=
  t.kind ∈ [.ident, .intLiteral] ∨ t.value = .text t.kind.spelling.toList

/-- An expression, written down. -/
def Expr.flatten : Expr → List (Kind × Value)
  | .literal value => [(.intLiteral, value)]
  | .ident name => [(.ident, name)]
  | .binary op lhs rhs => lhs.flatten ++ op.kind.content :: rhs.flatten

/-- A declaration, written down. -/
def Decl.flatten (d : Decl) : List (Kind × Value) :=
  (if d.isConst then [Kind.kwConst.content] else []) ++ [d.type.kind.content, (.ident, d.name)]

/-- Parameters, written down. -/
def flattenParams : List Decl → List (Kind × Value)
  | [] => []
  | [d] => d.flatten
  | d :: ds => d.flatten ++ Kind.comma.content :: flattenParams ds

mutual

/-- A statement, written down. -/
def Stmt.flatten : Stmt → List (Kind × Value)
  | .block body _ => Kind.leftBrace.content :: (flattenAll body ++ [Kind.rightBrace.content])
  | .assign name value _ =>
    (.ident, name) :: Kind.assign.content :: (value.flatten ++ [Kind.semi.content])
  | .compound name op value _ =>
    (.ident, name) :: op.assignKind.content :: (value.flatten ++ [Kind.semi.content])
  | .decl d _ => d.flatten ++ [Kind.semi.content]
  | .init d value _ => d.flatten ++ Kind.assign.content :: (value.flatten ++ [Kind.semi.content])
  | .function d params body _ _ =>
    d.flatten ++ Kind.leftParen.content :: (flattenParams params ++ Kind.rightParen.content ::
      Kind.leftBrace.content :: (flattenAll body ++ [Kind.rightBrace.content]))
  | .expr value _ => value.flatten ++ [Kind.semi.content]
  | .empty _ => [Kind.semi.content]

/-- Statements, written down one after another. -/
def flattenAll : List Stmt → List (Kind × Value)
  | [] => []
  | s :: body => s.flatten ++ flattenAll body

end

theorem Token.content_eq {t : Token} {kind : Kind} (h : t.kind = kind)
    (hkind : kind ∉ [.ident, .intLiteral]) : t.content = kind.content := by
  subst h
  rw [content, if_neg hkind]

theorem Token.content_of_own {t : Token} {kind : Kind} (h : t.kind = kind)
    (hkind : kind ∈ [.ident, .intLiteral]) : t.content = (kind, t.value) := by
  subst h
  rw [content, if_pos hkind]

/-- A spelled token says its kind and its value. -/
theorem Token.Spelled.content_eq {t : Token} (h : t.Spelled) : t.content = (t.kind, t.value) := by
  by_cases hown : t.kind ∈ [.ident, .intLiteral]
  · exact Token.content_of_own rfl hown
  · rw [Token.content_eq rfl hown, h.resolve_left hown]
    rfl

theorem IsTerm.flatten_eq {t : Token} {e : Expr} (h : IsTerm t e) : e.flatten = [t.content] := by
  cases h with
  | ident hident => rw [Token.content_of_own hident (by decide)]; rfl
  | literal hliteral => rw [Token.content_of_own hliteral (by decide)]; rfl

theorem IsExpr.flatten_eq {ts : List Token} {e : Expr} (h : IsExpr ts e) :
    e.flatten = ts.map Token.content := by
  induction h with
  | term hterm => exact hterm.flatten_eq
  | @binary ts sign t lhs rhs op hlhs hsign hrhs ih =>
      have hcontent : sign.content = op.kind.content :=
        Token.content_eq hsign (by cases op <;> decide)
      rw [Expr.flatten, ih, hrhs.flatten_eq, List.map_append, ← hcontent]
      rfl

theorem IsDecl.flatten_eq {ts : List Token} {d : Decl} (h : IsDecl ts d) :
    d.flatten = ts.map Token.content := by
  have htype {t : Token} {type : TypeName} (ht : t.kind = type.kind) :
      t.content = type.kind.content := Token.content_eq ht (by cases type <;> decide)
  cases h with
  | plain ht hname =>
      rw [List.map_cons, List.map_singleton, htype ht, Token.content_of_own hname (by decide)]
      rfl
  | const hconst ht hname =>
      rw [List.map_cons, List.map_cons, List.map_singleton,
        Token.content_eq hconst (by decide), htype ht, Token.content_of_own hname (by decide)]
      rfl

theorem IsParams.flatten_eq {ts : List Token} {ds : List Decl} (h : IsParams ts ds) :
    flattenParams ds = ts.map Token.content := by
  induction h with
  | one hdecl => exact hdecl.flatten_eq
  | @more ts us comma d ds hdecl hvoid hcomma hmore ih =>
      have hds : ds ≠ [] := by
        rintro rfl
        cases hmore
      rw [flattenParams.eq_3 d ds (fun h => hds h), hdecl.flatten_eq, ih, List.map_append,
        List.map_cons, Token.content_eq hcomma (by decide)]

theorem IsParamList.flatten_eq {ts : List Token} {ds : List Decl} (h : IsParamList ts ds) :
    flattenParams ds = ts.map Token.content := by
  cases h with
  | none => rfl
  | some hparams => exact hparams.flatten_eq

mutual

theorem IsStmt.flatten_eq {ts : List Token} {s : Stmt} :
    IsStmt ts s → s.flatten = ts.map Token.content
  | .empty hsemi => by
      rw [Stmt.flatten, List.map_singleton, Token.content_eq hsemi (by decide)]
  | .decl hdecl _ hsemi => by
      rw [Stmt.flatten, hdecl.flatten_eq, List.map_append, List.map_singleton,
        Token.content_eq hsemi (by decide)]
  | .init hdecl _ hequals hvalue hsemi => by
      rw [Stmt.flatten, hdecl.flatten_eq, hvalue.flatten_eq]
      simp only [List.map_append, List.map_cons, List.map_nil,
        Token.content_eq hequals (by decide), Token.content_eq hsemi (by decide)]
  | .function hdecl hleft hparams hright hopening hbody hclosing => by
      rw [Stmt.flatten, hdecl.flatten_eq, hparams.flatten_eq, hbody.flatten_eq]
      simp only [List.map_append, List.map_cons, List.map_nil,
        Token.content_eq hleft (by decide), Token.content_eq hright (by decide),
        Token.content_eq hopening (by decide), Token.content_eq hclosing (by decide)]
  | .assign hname hequals hvalue hsemi => by
      rw [Stmt.flatten, hvalue.flatten_eq]
      simp only [List.map_append, List.map_cons, List.map_nil,
        Token.content_of_own hname (by decide), Token.content_eq hequals (by decide),
        Token.content_eq hsemi (by decide)]
  | @IsStmt.compound _ _ _ _ op _ hname hsign hvalue hsemi => by
      rw [Stmt.flatten, hvalue.flatten_eq]
      simp only [List.map_append, List.map_cons, List.map_nil,
        Token.content_of_own hname (by decide),
        Token.content_eq hsign (by cases op <;> decide), Token.content_eq hsemi (by decide)]
  | .block hopening hbody hclosing => by
      rw [Stmt.flatten, hbody.flatten_eq]
      simp only [List.map_append, List.map_cons, List.map_nil,
        Token.content_eq hopening (by decide), Token.content_eq hclosing (by decide)]
  | .expr hvalue hsemi => by
      rw [Stmt.flatten, hvalue.flatten_eq, List.map_append, List.map_singleton,
        Token.content_eq hsemi (by decide)]

/-- **A tree, written down, is what its tokens say.** -/
theorem IsStmts.flatten_eq {ts : List Token} {body : List Stmt} :
    IsStmts ts body → flattenAll body = ts.map Token.content
  | .nil => rfl
  | .cons hstmt hrest => by
      rw [flattenAll, hstmt.flatten_eq, hrest.flatten_eq, List.map_append]

end

end IttyBitty.Ibcmc
