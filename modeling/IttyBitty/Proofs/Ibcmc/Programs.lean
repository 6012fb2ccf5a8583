import IttyBitty.Proofs.Ibcmc.Parsing
import IttyBitty.Proofs.Ibcmc.Scanning

/-!
# The parser accepts its grammar

Statements hold statements, so both directions are shown for all statements that
are read within a limit, from those within a smaller one: what is read is derivable
(`Parser.Sound`), and what is derivable from few enough tokens is read, to its end
and into the tree of its derivation (`Parser.Complete`). A program has a limit that
is large enough for all its tokens, so the parser returns the one tree that they
derive (`parseTokens_derives`). With the tokens of a text this is a grammar of
texts (`parse_eq_ok_iff`).
-/

namespace IttyBitty.Ibcmc

namespace Parser

variable {last : Token}

/-! ## Statements -/

/-- Reads a function behind its opening parenthesis. -/
def functionEnd (last : Token) (limit : Nat) (d : Decl) (line : Int) (ts : List Token) :
    Except ParseError (Stmt × List Token) := do
  let (ds, ts) ← params last limit ts
  let ts ← expect last .rightParen ts
  let ts ← expect last .leftBrace ts
  let (body, rest) ← stmtsFrom last [] limit ts
  let rest ← expect last .rightBrace rest
  return (.function d ds body (ts.headD last).line line, rest)

/-- Reads a statement that starts with a declaration. -/
def declared (last : Token) (limit : Nat) (ts : List Token) :
    Except ParseError (Stmt × List Token) := do
  let (d, rest) ← decl last ts
  if kindAt last rest = .leftParen then functionEnd last limit d (ts.headD last).line rest.tail
  else variableEnd last d (ts.headD last).line rest

/-- The first token says whether a statement starts with a declaration. -/
theorem stmt_of_kindAt {limit : Nat} {ts : List Token}
    (ht : kindAt last ts ∈ [.kwConst, .kwInt, .kwVoid]) :
    stmt last (limit + 1) ts = declared last limit ts := by
  simp only [List.mem_cons, List.not_mem_nil, or_false, kindAt] at ht
  rw [stmt]
  rcases ht with ht | ht | ht <;> rw [ht] <;> rfl

theorem stmt_eq_declared {limit : Nat} {t : Token} {ts : List Token}
    (ht : t.kind ∈ [.kwConst, .kwInt, .kwVoid]) :
    stmt last (limit + 1) (t :: ts) = declared last limit (t :: ts) :=
  stmt_of_kindAt ht

/-- Statements between braces have a first token in any case. -/
theorem line_braced {vs rest : List Token} {closing : Token} :
    ((vs ++ closing :: rest).headD last).line = lineOf (vs ++ [closing]) := by
  cases vs <;> rfl

/-! ## Whatever is read is derivable -/

/-- Whatever is read within a limit is derivable. -/
structure Sound (last : Token) (limit : Nat) : Prop where
  stmts : ∀ {done body : List Stmt} {ts rest : List Token},
    stmtsFrom last done limit ts = .ok (body, rest) →
    ∃ us more, ts = us ++ rest ∧ body = done.reverse ++ more ∧ IsStmts us more ∧
      kindAt last rest ∈ [.rightBrace, .endOfInput]
  stmt : ∀ {s : Stmt} {ts rest : List Token}, stmt last limit ts = .ok (s, rest) →
    ∃ us, ts = us ++ rest ∧ IsStmt us s

theorem Sound.zero : Sound last 0 where
  stmts h := by cases h
  stmt h := by cases h

/-- Statements that are read between braces. -/
theorem Sound.braced {limit : Nat} (h : Sound last limit) (hlast : last.kind = .endOfInput)
    {body : List Stmt} {ts ts' rest : List Token}
    (hbody : stmtsFrom last [] limit ts = .ok (body, ts'))
    (hclosing : expect last .rightBrace ts' = .ok rest) :
    ∃ us closing, ts = us ++ closing :: rest ∧ IsStmts us body ∧ closing.kind = .rightBrace := by
  obtain ⟨us, body, rfl, rfl, hstmts, -⟩ := h.stmts hbody
  obtain ⟨closing, rfl, hkind⟩ := (expect_eq_ok_iff hlast (by decide)).mp hclosing
  exact ⟨us, closing, rfl, hstmts, hkind⟩

theorem Sound.functionEnd {limit : Nat} (h : Sound last limit) (hlast : last.kind = .endOfInput)
    {d : Decl} {s : Stmt} {left : Token} {us ts rest : List Token} (hdecl : IsDecl us d)
    (hleft : left.kind = .leftParen)
    (hread : functionEnd last limit d (lineOf us) ts = .ok (s, rest)) :
    ∃ vs, left :: ts = vs ++ rest ∧ IsStmt (us ++ vs) s := by
  obtain ⟨⟨ds, ts₁⟩, hparams, hread⟩ := bind_eq_ok_iff.mp hread
  obtain ⟨ts₂, hexpect₁, hread⟩ := bind_eq_ok_iff.mp hread
  obtain ⟨ts₃, hexpect₂, hread⟩ := bind_eq_ok_iff.mp hread
  obtain ⟨⟨body, ts₄⟩, hbody, hread⟩ := bind_eq_ok_iff.mp hread
  obtain ⟨ts₅, hexpect₃, hok⟩ := bind_eq_ok_iff.mp hread
  cases hok
  obtain ⟨ps, rfl, hps⟩ := isParamList_of_params hlast hparams
  obtain ⟨right, rfl, hright⟩ := (expect_eq_ok_iff hlast (by decide)).mp hexpect₁
  obtain ⟨opening, rfl, hopening⟩ := (expect_eq_ok_iff hlast (by decide)).mp hexpect₂
  obtain ⟨vs, closing, rfl, hstmts, hclosing⟩ := h.braced hlast hbody hexpect₃
  refine ⟨left :: (ps ++ right :: opening :: (vs ++ [closing])), by simp, ?_⟩
  rw [line_braced]
  exact .function hdecl hleft hps hright hopening hstmts hclosing

theorem Sound.declared {limit : Nat} (h : Sound last limit) (hlast : last.kind = .endOfInput)
    {s : Stmt} {ts rest : List Token} (hread : declared last limit ts = .ok (s, rest)) :
    ∃ us, ts = us ++ rest ∧ IsStmt us s := by
  obtain ⟨⟨d, ts'⟩, hd, hread⟩ := bind_eq_ok_iff.mp hread
  obtain ⟨us, rfl, hdecl⟩ := isDecl_of_decl hlast hd
  have hline : ((us ++ ts').headD last).line = lineOf us := by
    obtain ⟨t, ts, rfl, -⟩ := isDecl_head hdecl
    rfl
  simp only [hline] at hread
  have hrest : ∃ vs, ts' = vs ++ rest ∧ IsStmt (us ++ vs) s := by
    split at hread
    · rename_i hleft
      obtain ⟨left, ts'', rfl, hleft⟩ := exists_cons_of_kindAt hlast hleft (by decide)
      exact h.functionEnd hlast hdecl hleft hread
    · exact isStmt_of_variableEnd hlast hdecl hread
  obtain ⟨vs, rfl, hstmt⟩ := hrest
  exact ⟨us ++ vs, (List.append_assoc us vs rest).symm, hstmt⟩

theorem Sound.succ {limit : Nat} (h : Sound last limit) (hlast : last.kind = .endOfInput) :
    Sound last (limit + 1) where
  stmts := by
    intro done body ts rest hread
    rw [stmtsFrom] at hread
    split at hread
    case h_1 hstop | h_2 hstop =>
      cases hread
      exact ⟨[], [], rfl, (List.append_nil _).symm, .nil, by rw [hstop]; decide⟩
    case h_3 =>
      obtain ⟨⟨s, ts'⟩, hs, hrest⟩ := bind_eq_ok_iff.mp hread
      obtain ⟨us, rfl, hstmt⟩ := h.stmt hs
      obtain ⟨vs, more, rfl, rfl, hmore, hstop⟩ := h.stmts hrest
      exact ⟨us ++ vs, s :: more, by simp, by simp, .cons hstmt hmore, hstop⟩
  stmt := by
    intro s ts rest hread
    cases ts with
    | nil =>
        -- the end of the input starts no statement
        rw [Parser.stmt, List.headD_nil, hlast] at hread
        obtain ⟨⟨e, ts'⟩, he, -⟩ := bind_eq_ok_iff.mp hread
        obtain ⟨us, semi, hts, -⟩ := (exprSemi_eq_ok_iff hlast).mp he
        cases us <;> cases hts
    | cons t ts =>
        by_cases hdeclared : t.kind ∈ [.kwConst, .kwInt, .kwVoid]
        · rw [stmt_eq_declared hdeclared] at hread
          exact h.declared hlast hread
        · rw [Parser.stmt, List.headD_cons] at hread
          split at hread
          case h_2 hkind | h_3 hkind | h_4 hkind =>
            exact absurd (by rw [hkind]; decide) hdeclared
          case h_1 hsemi =>
            cases hread
            exact ⟨[t], rfl, .empty hsemi⟩
          case h_5 hopening =>
            obtain ⟨⟨body, ts'⟩, hbody, hread⟩ := bind_eq_ok_iff.mp hread
            obtain ⟨ts'', hclosing, hok⟩ := bind_eq_ok_iff.mp hread
            cases hok
            obtain ⟨us, closing, hts, hstmts, hclosing⟩ := h.braced hlast hbody hclosing
            obtain rfl : ts = us ++ closing :: rest := hts
            exact ⟨t :: (us ++ [closing]), by simp, .block hopening hstmts hclosing⟩
          case h_6 hname => exact isStmt_of_named hlast hname hread
          case h_7 => exact isStmt_of_exprSemi hlast hread

theorem sound (hlast : last.kind = .endOfInput) (limit : Nat) : Sound last limit := by
  induction limit with
  | zero => exact .zero
  | succ limit ih => exact ih.succ hlast

/-! ## Whatever is derivable is read -/

/-- No statement starts with what ends statements. -/
theorem isStmt_head {s : Stmt} {us : List Token} (h : IsStmt us s) :
    ∃ t ts, us = t :: ts ∧ t.kind ∉ [.rightBrace, .endOfInput] := by
  have hdeclared {d : Decl} {us vs : List Token} (hdecl : IsDecl us d) :
      ∃ t ts, us ++ vs = t :: ts ∧ t.kind ∉ [.rightBrace, .endOfInput] := by
    obtain ⟨t, ts, rfl, ht⟩ := isDecl_head hdecl
    refine ⟨t, ts ++ vs, rfl, fun hstop => ?_⟩
    simp only [List.mem_cons, List.not_mem_nil, or_false] at ht hstop
    rcases hstop with hstop | hstop <;> rw [hstop] at ht <;> revert ht <;> decide
  cases h with
  | @empty semi hsemi => exact ⟨semi, [], rfl, by rw [hsemi]; decide⟩
  | decl hdecl => exact hdeclared hdecl
  | init hdecl => exact hdeclared hdecl
  | function hdecl => exact hdeclared hdecl
  | @assign _ name _ _ _ hname => exact ⟨name, _, rfl, by rw [hname]; decide⟩
  | @compound _ name _ _ _ _ hname => exact ⟨name, _, rfl, by rw [hname]; decide⟩
  | @block _ opening _ _ hopening => exact ⟨opening, _, rfl, by rw [hopening]; decide⟩
  | expr hvalue =>
      obtain ⟨t, lhs, us, rfl, hterm, -⟩ := isExpr_iff.mp hvalue
      refine ⟨t, us ++ _, rfl, ?_⟩
      cases hterm with
      | ident hident => rw [hident]; decide
      | literal hliteral => rw [hliteral]; decide

/-- Whatever is derivable from no more tokens than the limit allows is read. -/
structure Complete (last : Token) (limit : Nat) : Prop where
  stmts : ∀ (done : List Stmt) (rest : List Token) {body : List Stmt} {us : List Token},
    IsStmts us body → us.length < limit → kindAt last rest ∈ [.rightBrace, .endOfInput] →
    stmtsFrom last done limit (us ++ rest) = .ok (done.reverse ++ body, rest)
  stmt : ∀ (rest : List Token) {s : Stmt} {us : List Token}, IsStmt us s → us.length ≤ limit →
    stmt last limit (us ++ rest) = .ok (s, rest)

theorem Complete.zero : Complete last 0 where
  stmts _ _ _ _ _ hlimit := absurd hlimit (Nat.not_lt_zero _)
  stmt _ _ _ h hlimit := by
    obtain ⟨t, ts, rfl, -⟩ := isStmt_head h
    exact absurd hlimit (Nat.not_succ_le_zero _)

/-- Statements are read between braces. -/
theorem Complete.braced {limit : Nat} (h : Complete last limit) (hlast : last.kind = .endOfInput)
    {body : List Stmt} {closing : Token} {vs : List Token} (rest : List Token)
    (hbody : IsStmts vs body) (hclosing : closing.kind = .rightBrace)
    (hlimit : vs.length < limit) :
    stmtsFrom last [] limit (vs ++ closing :: rest) = .ok (body, closing :: rest) ∧
      expect last .rightBrace (closing :: rest) = .ok rest := by
  refine ⟨h.stmts [] _ hbody hlimit ?_, (expect_eq_ok_iff hlast (by decide)).mpr ⟨_, rfl, hclosing⟩⟩
  rw [kindAt_cons, hclosing]
  decide

theorem Complete.functionEnd {limit : Nat} (h : Complete last limit)
    (hlast : last.kind = .endOfInput) {d : Decl} {ds : List Decl} {body : List Stmt}
    {right opening closing : Token} {us vs : List Token} (rest : List Token) (line : Int)
    (hparams : IsParamList us ds) (hright : right.kind = .rightParen)
    (hopening : opening.kind = .leftBrace) (hbody : IsStmts vs body)
    (hclosing : closing.kind = .rightBrace) (hlimit : us.length + vs.length < limit) :
    functionEnd last limit d line (us ++ right :: opening :: (vs ++ closing :: rest)) =
      .ok (.function d ds body (lineOf (vs ++ [closing])) line, rest) := by
  obtain ⟨hread, hend⟩ := h.braced hlast rest hbody hclosing (by omega)
  rw [← line_braced]
  refine bind_eq_ok_iff.mpr ⟨_, params_of_isParamList hparams (by omega) hright, ?_⟩
  refine bind_eq_ok_iff.mpr ⟨_, (expect_eq_ok_iff hlast (by decide)).mpr ⟨_, rfl, hright⟩, ?_⟩
  refine bind_eq_ok_iff.mpr ⟨_, (expect_eq_ok_iff hlast (by decide)).mpr ⟨_, rfl, hopening⟩, ?_⟩
  refine bind_eq_ok_iff.mpr ⟨_, hread, ?_⟩
  exact bind_eq_ok_iff.mpr ⟨_, hend, rfl⟩

/-- A statement that starts with a declaration is read by what stands behind it. -/
theorem stmt_of_isDecl {limit : Nat} {d : Decl} {us ts : List Token} (hdecl : IsDecl us d) :
    stmt last (limit + 1) (us ++ ts) =
      if kindAt last ts = .leftParen then functionEnd last limit d (lineOf us) ts.tail
      else variableEnd last d (lineOf us) ts := by
  have hread := decl_of_isDecl last ts hdecl
  obtain ⟨t, us, rfl, ht⟩ := isDecl_head hdecl
  rw [List.cons_append, stmt_eq_declared ht, declared, ← List.cons_append, hread]
  rfl

/-- An expression goes on with an operator, so what stands behind its first token
and in front of a semicolon assigns nothing. -/
theorem kindAt_of_continues (last : Token) {lhs e : Expr} {semi : Token} {us : List Token}
    (rest : List Token) (h : Continues lhs us e) (hsemi : semi.kind = .semi) :
    kindAt last (us ++ semi :: rest) ∈ [.semi, .plus, .minus] := by
  cases h with
  | done =>
      rw [List.nil_append, kindAt_cons, hsemi]
      decide
  | @more _ _ _ sign t op us hsign =>
      rw [List.cons_append, kindAt_cons, hsign]
      cases op <;> decide

theorem stmt_of_isExpr (hlast : last.kind = .endOfInput) {limit : Nat} {e : Expr} {semi : Token}
    {us rest : List Token} (h : IsExpr us e) (hsemi : semi.kind = .semi) :
    stmt last (limit + 1) (us ++ semi :: rest) = .ok (.expr e (lineOf us), rest) := by
  have hread (line : Int) : (exprSemi last (us ++ semi :: rest) >>= fun p =>
      pure (Stmt.expr p.1 line, p.2)) = .ok (.expr e line, rest) :=
    (exprSemi_bind_eq_ok_iff hlast fun e => .expr e line).mpr ⟨us, semi, e, rfl, h, hsemi, rfl⟩
  obtain ⟨t, lhs, us, rfl, hterm, hmore⟩ := isExpr_iff.mp h
  rw [stmt, List.cons_append, List.headD_cons]
  cases hterm with
  | literal hliteral =>
      rw [hliteral]
      exact hread t.line
  | ident hident =>
      rw [hident]
      dsimp only
      have hkind := kindAt_of_continues last rest hmore hsemi
      simp only [List.mem_cons, List.not_mem_nil, or_false] at hkind
      rw [named, List.tail_cons]
      rcases hkind with hkind | hkind | hkind <;> rw [hkind] <;> exact hread t.line

theorem Complete.succ {limit : Nat} (h : Complete last limit) (hlast : last.kind = .endOfInput) :
    Complete last (limit + 1) where
  stmts := by
    intro done rest body us hstmts hlimit hstop
    cases hstmts with
    | nil =>
        simp only [List.mem_cons, List.not_mem_nil, or_false] at hstop
        rw [stmtsFrom, List.nil_append, List.append_nil]
        rcases hstop with hstop | hstop <;> rw [hstop]
    | @cons us vs s body hstmt hrest =>
        have hread := h.stmt (vs ++ rest) hstmt
        obtain ⟨t, us, rfl, ht⟩ := isStmt_head hstmt
        rw [List.length_append, List.length_cons] at hlimit
        rw [List.append_assoc, stmtsFrom]
        split
        case h_1 hkind | h_2 hkind =>
          rw [List.cons_append, kindAt_cons] at hkind
          exact absurd (by rw [hkind]; decide) ht
        case h_3 =>
          refine bind_eq_ok_iff.mpr ⟨_, hread (by rw [List.length_cons]; omega), ?_⟩
          have hbody := h.stmts (s :: done) rest hrest (by omega) hstop
          rw [List.reverse_cons, List.append_assoc] at hbody
          exact hbody
  stmt := by
    intro rest s us hstmt hlimit
    cases hstmt with
    | empty hsemi =>
        rw [Parser.stmt]
        simp only [List.cons_append, List.headD_cons, hsemi]
        rfl
    | @decl us semi d hdecl hvoid hsemi =>
        rw [List.append_assoc, stmt_of_isDecl hdecl, List.singleton_append, kindAt_cons, hsemi,
          if_neg (by decide), variableEnd, if_neg hvoid, kindAt_cons, hsemi]
        rfl
    | @init us vs equals semi d e hdecl hvoid hequals hvalue hsemi =>
        rw [List.append_assoc, stmt_of_isDecl hdecl, List.cons_append, kindAt_cons, hequals,
          if_neg (by decide), variableEnd, if_neg hvoid, kindAt_cons, hequals]
        exact (exprSemi_bind_eq_ok_iff hlast fun e => .init d e (lineOf us)).mpr
          ⟨vs, semi, e, by simp, hvalue, hsemi, rfl⟩
    | @function us vs ws left right opening closing d ds body hdecl hleft hparams hright hopening
        hbody hclosing =>
        simp only [List.length_append, List.length_cons, List.length_nil] at hlimit
        rw [List.append_assoc, stmt_of_isDecl hdecl, if_pos (by exact hleft)]
        have hread := h.functionEnd hlast (d := d) rest (lineOf us) hparams hright
          hopening hbody hclosing (by omega)
        simpa using hread
    | @assign us name equals semi e hname hequals hvalue hsemi =>
        rw [Parser.stmt]
        simp only [List.cons_append, List.headD_cons, hname]
        rw [named, List.tail_cons, kindAt_cons, hequals]
        exact (exprSemi_bind_eq_ok_iff hlast fun e => .assign name.value e name.line).mpr
          ⟨us, semi, e, by simp, hvalue, hsemi, rfl⟩
    | @compound us name sign semi op e hname hsign hvalue hsemi =>
        have hread : (exprSemi last (us ++ [semi] ++ rest) >>= fun p =>
            pure (Stmt.compound name.value op p.1 name.line, p.2)) =
            .ok (.compound name.value op e name.line, rest) :=
          (exprSemi_bind_eq_ok_iff hlast fun e => .compound name.value op e name.line).mpr
            ⟨us, semi, e, by simp, hvalue, hsemi, rfl⟩
        rw [Parser.stmt]
        simp only [List.cons_append, List.headD_cons, hname]
        rw [named, List.tail_cons, kindAt_cons, hsign]
        cases op <;> exact hread
    | @block vs opening closing body hopening hbody hclosing =>
        rw [List.length_cons, List.length_append, List.length_singleton] at hlimit
        obtain ⟨hread, hend⟩ := h.braced hlast rest hbody hclosing (by omega)
        rw [Parser.stmt]
        simp only [List.cons_append, List.headD_cons, hopening, List.tail_cons, List.append_assoc]
        refine bind_eq_ok_iff.mpr ⟨_, hread, ?_⟩
        exact bind_eq_ok_iff.mpr ⟨_, hend, rfl⟩
    | @expr us semi e hvalue hsemi =>
        rw [List.append_assoc]
        exact stmt_of_isExpr hlast hvalue hsemi

theorem complete (hlast : last.kind = .endOfInput) (limit : Nat) : Complete last limit := by
  induction limit with
  | zero => exact .zero
  | succ limit ih => exact ih.succ hlast

/-! ## Programs -/

/-- The last token of a list is the one that is kept apart. -/
theorem parseTokens_concat (ts : List Token) (last : Token) :
    parseTokens (ts ++ [last]) = program last ts := by
  rw [parseTokens, List.getLast?_concat, List.dropLast_concat]

/-- The parser returns the tree that its tokens derive, and no other. -/
theorem parseTokens_eq_ok_iff {ts : List Token} {eof : Token} (heof : eof.kind = .endOfInput)
    (hts : ∀ t ∈ ts, t.kind ≠ .endOfInput) (b : Block) :
    parseTokens (ts ++ [eof]) = .ok b ↔ IsStmts ts b.body ∧ b.line = lineOf (ts ++ [eof]) := by
  have hline : (ts.headD eof).line = lineOf (ts ++ [eof]) := by
    cases ts <;> rfl
  rw [parseTokens_concat, program]
  constructor
  · intro h
    obtain ⟨⟨body, rest⟩, hbody, hend⟩ := bind_eq_ok_iff.mp h
    obtain ⟨us, body, rfl, rfl, hstmts, -⟩ := (sound heof _).stmts hbody
    dsimp only at hend
    split at hend
    · rename_i hkind
      cases hend
      -- no other token is an end, so that nothing is left
      cases rest with
      | nil => exact ⟨by simpa using hstmts, hline⟩
      | cons t rest => exact absurd hkind (hts t (by simp))
    · cases hend
  · rintro ⟨hstmts, hb⟩
    have hread := (complete heof (2 * ts.length + 4)).stmts [] [] hstmts
      (by omega) (by rw [kindAt_nil, heof]; decide)
    rw [List.append_nil] at hread
    refine bind_eq_ok_iff.mpr ⟨_, hread, ?_⟩
    dsimp only
    rw [if_pos (by exact heof), hline, ← hb]
    rfl

end Parser

/-- **The parser accepts exactly its grammar and builds the one tree that the tokens
derive**, which says, written down, what the tokens say. -/
theorem parseTokens_derives {ts : List Token} {eof : Token} (heof : eof.kind = .endOfInput)
    (hts : ∀ t ∈ ts, t.kind ≠ .endOfInput) :
    (∀ b, parseTokens (ts ++ [eof]) = .ok b ↔
      IsStmts ts b.body ∧ b.line = lineOf (ts ++ [eof])) ∧
    (∀ body body', IsStmts ts body → IsStmts ts body' → body = body') ∧
    ∀ body, IsStmts ts body → flattenAll body = ts.map Token.content ∧
      ((∀ t ∈ ts, t.Spelled) → flattenAll body = ts.map fun t => (t.kind, t.value)) := by
  refine ⟨Parser.parseTokens_eq_ok_iff heof hts, fun body body' h h' => ?_, fun body h => ?_⟩
  · have hparse := (Parser.parseTokens_eq_ok_iff heof hts ⟨body, _⟩).mpr ⟨h, rfl⟩
    have hparse' := (Parser.parseTokens_eq_ok_iff heof hts ⟨body', _⟩).mpr ⟨h', rfl⟩
    exact congrArg Block.body (Except.ok.inj (hparse.symm.trans hparse'))
  · refine ⟨h.flatten_eq, fun hspelled => h.flatten_eq.trans ?_⟩
    exact List.map_congr_left fun t ht => (hspelled t ht).content_eq

/-- The tokens of `a - 7 + c;` on a third line derive a chain that nests to the left. -/
theorem parseTokens_derives_chain :
    let a : Token := ⟨.ident, .text ['a'], 3, 1⟩
    let minus : Token := ⟨.minus, .text ['-'], 3, 3⟩
    let seven : Token := ⟨.intLiteral, .number 7, 3, 5⟩
    let plus : Token := ⟨.plus, .text ['+'], 3, 7⟩
    let c : Token := ⟨.ident, .text ['c'], 3, 9⟩
    let semi : Token := ⟨.semi, .text [';'], 3, 10⟩
    let eof : Token := ⟨.endOfInput, .text [], 3, 11⟩
    let tree : Block := ⟨[.expr (.binary .add (.binary .sub (.ident (.text ['a']))
      (.literal (.number 7))) (.ident (.text ['c']))) 3], 3⟩
    parseTokens [a, minus, seven, plus, c, semi, eof] = .ok tree ∧
      IsStmts [a, minus, seven, plus, c, semi] tree.body := by
  intro a minus seven plus c semi eof tree
  have hderives := parseTokens_derives (show eof.kind = .endOfInput from rfl)
    (show ∀ t ∈ [a, minus, seven, plus, c, semi], t.kind ≠ .endOfInput by decide)
  exact ⟨rfl, ((hderives.1 tree).mp rfl).1⟩

/-! ## Texts -/

/-- The value of a lexeme is its spelling unless its kind has more than one. -/
theorem IsLexeme.spelled {chars rest : Text} {kind : Kind} {value : Value}
    (h : IsLexeme chars rest (some (kind, value))) :
    (kind ∈ [.ident, .intLiteral] ∨ value = .text kind.spelling.toList) ∧ kind ≠ .endOfInput := by
  cases h with
  | literal => exact ⟨.inl (by decide), by decide⟩
  | name => exact ⟨.inl (by decide), by decide⟩
  | keyword hkind =>
      refine ⟨.inr rfl, ?_⟩
      rintro rfl
      exact absurd hkind (by decide)
  | sign hkind =>
      refine ⟨.inr rfl, ?_⟩
      rintro rfl
      exact absurd hkind (by decide)

/-- The tokens of a text are spelled, and none of them is its end. -/
theorem Scans.spelled {t before rest : Text} {tokens : List Token}
    (h : Scans t before rest tokens) :
    ∀ token ∈ tokens, token.Spelled ∧ token.kind ≠ .endOfInput := by
  induction h with
  | start => exact fun _ h => absurd h List.not_mem_nil
  | separator _ _ ih => exact ih
  | token _ hlexeme ih =>
      intro token htoken
      rcases List.mem_append.mp htoken with htoken | htoken
      · exact ih token htoken
      · obtain rfl := List.mem_singleton.mp htoken
        exact hlexeme.spelled

/-- **A text has the tree that its lexemes derive**, and no other. -/
theorem parse_eq_ok_iff (t : Text) (b : Block) :
    parse t = .ok b ↔ ∃ tokens, Scans t t [] tokens ∧ IsStmts tokens b.body ∧
      b.line = lineOf (tokens ++ [endToken t]) := by
  have hparse {tokens : List Token} (h : Scans t t [] tokens) :
      parse t = .ok b ↔ IsStmts tokens b.body ∧ b.line = lineOf (tokens ++ [endToken t]) := by
    have hiff := Parser.parseTokens_eq_ok_iff (show (endToken t).kind = .endOfInput from rfl)
      (fun token htoken => (h.spelled token htoken).2) b
    rw [parse, h.tokenize_eq_ok, ← hiff]
    dsimp only
    cases parseTokens (tokens ++ [endToken t]) with
    | error e =>
        refine ⟨?_, ?_⟩ <;> intro hb <;> cases hb
    | ok b' =>
        refine ⟨?_, ?_⟩ <;> intro hb <;> cases hb <;> rfl
  obtain ⟨before, rest, tokens, h, rfl | ⟨e, he⟩⟩ := (Scans.start (t := t)).exists_last
  · obtain rfl : before = t := by simpa using h.append_eq
    refine ⟨fun hb => ⟨tokens, h, (hparse h).mp hb⟩, ?_⟩
    rintro ⟨tokens', h', hb⟩
    exact (hparse h').mpr hb
  · refine ⟨fun hb => ?_, ?_⟩
    · rw [parse, h.tokenize_eq_error he] at hb
      cases hb
    · rintro ⟨tokens', h', hb⟩
      exact (hparse h').mpr hb

end IttyBitty.Ibcmc
