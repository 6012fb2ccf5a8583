import IttyBitty.Proofs.Ibcmc.Cursor
import IttyBitty.Proofs.Ibcmc.Limits

/-!
# The parser comes to an end

The parser and the reading by positions go hand in hand (`Cursor.Mirrors`), function by
function and whatever the last token is. So the reading never leaves the list and is never
asked for a statement at the end of the input. Nor does it go on for ever, in front of a last
token that is neither a semicolon nor an opening brace (`parser_terminates`): every statement
takes a token, and such a token is no statement alone.
-/

namespace IttyBitty.Ibcmc

namespace Cursor

variable {us ts : List Token} {last : Token} {pos : Nat}

/-! ## Hand in hand -/

/-- A reading by positions and one of the tokens that are left end alike: with the same
result at the same place, with the same complaint about a token of the list, or not at all. -/
inductive Mirrors (us : List Token) (last : Token) {α : Type} :
    Except Halt (α × Nat) → Except ParseError (α × List Token) → Prop
  | read {a : α} {pos : Nat} {ts : List Token} (h : At us pos ts) :
      Mirrors us last (.ok (a, pos)) (.ok (a, ts))
  | complaint {c : Complaint} {token : Token} (h : token ∈ us ++ [last]) :
      Mirrors us last (.error (.complaint c token)) (.error (.complaint c token))
  | unfinished : Mirrors us last (.error .unfinished) (.error .endless)

/-! ### Steps -/

section Steps

variable {α β : Type} {r' : Except ParseError (α × List Token)}

theorem Mirrors.bind {r : Except Halt (β × Nat)} {q : Except ParseError (β × List Token)}
    {f : β × Nat → Except Halt (α × Nat)}
    {g : β × List Token → Except ParseError (α × List Token)} (h : Mirrors us last r q)
    (hf : ∀ {a pos ts}, At us pos ts → Mirrors us last (f (a, pos)) (g (a, ts))) :
    Mirrors us last (r >>= f) (q >>= g) := by
  cases h with
  | read h => exact hf h
  | complaint h => exact .complaint h
  | unfinished => exact .unfinished

theorem Mirrors.complain (h : At us pos ts) (c : Complaint) :
    Mirrors us last (complain (us ++ [last]) c pos : Except Halt (α × Nat))
      (Parser.complain last ts c) := by
  rw [Cursor.complain, h.current_eq]
  exact .complaint h.mem

theorem Mirrors.current (h : At us pos ts) {f : Token → Except Halt (α × Nat)}
    (hf : Mirrors us last (f (ts.headD last)) r') :
    Mirrors us last (current (us ++ [last]) pos >>= f) r' := by
  rw [h.current_eq]
  exact hf

theorem Mirrors.following (h : At us pos ts) {f : Token → Except Halt (α × Nat)}
    (hf : Mirrors us last (f (ts.tail.headD last)) r') :
    Mirrors us last (following (us ++ [last]) pos >>= f) r' := by
  rw [h.following_eq]
  exact hf

theorem Mirrors.advance (h : At us pos ts) {f : Token × Nat → Except Halt (α × Nat)}
    (hf : ∀ {pos'}, At us pos' ts.tail → Mirrors us last (f (ts.headD last, pos')) r') :
    Mirrors us last (advance (us ++ [last]) pos >>= f) r' := by
  obtain ⟨pos', hadvance, h'⟩ := h.advance_eq last
  rw [hadvance]
  exact hf h'

theorem Mirrors.accept (h : At us pos ts) {kind : Kind} {f : Bool × Nat → Except Halt (α × Nat)}
    (heq : Parser.kindAt last ts = kind → ∀ {pos'}, At us pos' ts.tail →
      Mirrors us last (f (true, pos')) r')
    (hne : Parser.kindAt last ts ≠ kind → Mirrors us last (f (false, pos)) r') :
    Mirrors us last (accept (us ++ [last]) kind pos >>= f) r' := by
  by_cases hkind : Parser.kindAt last ts = kind
  · obtain ⟨pos', haccept, h'⟩ := h.accept_eq hkind
    rw [haccept]
    exact heq hkind h'
  · rw [h.accept_ne hkind]
    exact hne hkind

theorem Mirrors.expect (h : At us pos ts) (kind : Kind) {f : Token × Nat → Except Halt (α × Nat)}
    {g : List Token → Except ParseError (α × List Token)}
    (hf : ∀ {pos'}, At us pos' ts.tail → Mirrors us last (f (ts.headD last, pos')) (g ts.tail)) :
    Mirrors us last (expect (us ++ [last]) kind (.expected kind) pos >>= f)
      (Parser.expect last kind ts >>= g) := by
  rw [Parser.expect]
  split
  · rename_i hkind
    obtain ⟨pos', hexpect, h'⟩ := h.expect_eq (.expected kind) hkind
    rw [hexpect]
    exact hf h'
  · rename_i hkind
    rw [h.expect_ne (.expected kind) hkind]
    exact .complaint h.mem

end Steps

/-! ### Expressions -/

/-- In each round a token is passed, or the last token is complained about. -/
theorem chain_mirrors (h : At us pos ts) {limit : Nat} (hlimit : ts.length < limit)
    (lhs : Expr) :
    Mirrors us last (chain (us ++ [last]) lhs limit pos) (Parser.chain last lhs ts) := by
  induction limit generalizing lhs pos ts with
  | zero => exact absurd hlimit (Nat.not_lt_zero _)
  | succ limit ih =>
      rw [chain, Parser.chain_eq]
      refine .current h ?_
      rw [← Parser.kindAt]
      cases hop : Parser.operator? (Parser.kindAt last ts) with
      | none => exact .read h
      | some op =>
          refine .advance h fun h' => ?_
          cases hterm : Parser.term? (ts.tail.headD last) with
          | none =>
              dsimp only
              rw [h'.term_none hterm]
              exact .complaint h'.mem
          | some rhs =>
              dsimp only
              obtain ⟨pos'', hread, h''⟩ := h'.term_eq hterm
              rw [hread]
              refine ih h'' ?_ _
              cases ts with
              | nil =>
                  have hnone : Parser.operator? (Parser.kindAt last []) = none :=
                    Parser.operator?_of_isTerm (Parser.term?_eq_some_iff.mp hterm)
                  rw [hnone] at hop
                  cases hop
              | cons t ts =>
                  simp at hlimit ⊢
                  omega

theorem exprSemi_mirrors (h : At us pos ts) :
    Mirrors us last (exprSemi (us ++ [last]) pos) (Parser.exprSemi last ts) := by
  rw [exprSemi, Parser.exprSemi, Parser.expr]
  cases hterm : Parser.term? (ts.headD last) with
  | none =>
      rw [h.term_none hterm]
      exact .complaint h.mem
  | some e =>
      obtain ⟨pos', hread, h'⟩ := h.term_eq hterm
      rw [hread]
      have hlimit : ts.tail.length < (us ++ [last]).length := by
        have := congrArg List.length h.drop
        simp at this ⊢
        omega
      refine (chain_mirrors h' hlimit e).bind fun h'' => ?_
      exact .expect h'' .semi fun h''' => .read h'''

/-! ### Declarations -/

theorem typed_mirrors (h : At us pos ts) (isConst : Bool) :
    Mirrors us last (typed (us ++ [last]) isConst pos)
      (match Parser.type? (Parser.kindAt last ts) with
        | none => Parser.complain last ts .expectedType
        | some type =>
          if (ts.tail.headD last).kind = .ident then
            .ok (⟨isConst, type, (ts.tail.headD last).value⟩, ts.tail.tail)
          else Parser.complain last ts.tail .expectedName) := by
  refine .current h ?_
  rw [← Parser.kindAt]
  cases Parser.type? (Parser.kindAt last ts) with
  | none => exact .complaint h.mem
  | some type =>
      refine .advance h fun h' => ?_
      dsimp only
      split
      · rename_i hident
        obtain ⟨pos'', hread, h''⟩ := h'.expect_eq .expectedName hident
        rw [hread]
        exact .read h''
      · rename_i hident
        rw [h'.expect_ne .expectedName hident]
        exact .complaint h'.mem

theorem decl_mirrors (h : At us pos ts) :
    Mirrors us last (decl (us ++ [last]) pos) (Parser.decl last ts) := by
  rw [decl, Parser.decl]
  refine .accept h (fun hconst _ h' => ?_) fun hconst => ?_
  · rw [hconst]
    exact typed_mirrors h' true
  · rw [beq_false_of_ne hconst]
    exact typed_mirrors h false

theorem paramsFrom_mirrors (h : At us pos ts) (done : List Decl) (limit : Nat) :
    Mirrors us last (paramsFrom (us ++ [last]) done limit pos)
      (Parser.paramsFrom last done limit ts) := by
  induction limit generalizing done pos ts with
  | zero => exact .unfinished
  | succ limit ih =>
      refine (decl_mirrors h).bind fun {param pos ts} h => ?_
      dsimp only
      split
      · exact .complain h _
      · refine .accept h (fun hcomma _ h' => ?_) fun hcomma => ?_
        · rw [if_pos hcomma]
          exact ih h' _
        · rw [if_neg hcomma]
          exact .read h

theorem params_mirrors (h : At us pos ts) (limit : Nat) :
    Mirrors us last (params (us ++ [last]) limit pos) (Parser.params last limit ts) := by
  rw [Parser.params]
  refine .current h ?_
  rw [← Parser.kindAt]
  split
  · exact .read h
  · exact paramsFrom_mirrors h [] limit

/-! ### Statements -/

/-- What is made of an expression. -/
theorem exprSemi_bind_mirrors (h : At us pos ts) (last : Token) (make : Expr → Stmt) :
    Mirrors us last (exprSemi (us ++ [last]) pos >>= fun p => pure (make p.1, p.2))
      (Parser.exprSemi last ts >>= fun p => pure (make p.1, p.2)) :=
  (exprSemi_mirrors h).bind fun h' => .read h'

theorem variableEnd_mirrors (h : At us pos ts) (d : Decl) (line : Int) :
    Mirrors us last (variableEnd (us ++ [last]) d line pos)
      (Parser.variableEnd last d line ts) := by
  rw [variableEnd, Parser.variableEnd]
  split
  · exact .complain h _
  · refine .accept h (fun hsemi _ h' => ?_) fun hsemi => ?_
    · rw [hsemi]
      exact .read h'
    · refine .accept h (fun hassign _ h' => ?_) fun hassign => ?_
      · rw [hassign]
        exact exprSemi_bind_mirrors h' last fun value => .init d value line
      · show Mirrors us last (complain (us ++ [last]) .expectedDeclarationEnd pos) _
        split
        case h_1 hkind => exact absurd hkind hsemi
        case h_2 hkind => exact absurd hkind hassign
        case h_3 => exact .complain h _

theorem plain_mirrors (h : At us pos ts) (hend : Parser.kindAt last ts ≠ .endOfInput)
    (first : Token) :
    Mirrors us last (plain (us ++ [last]) first pos)
      (Parser.exprSemi last ts >>= fun p => pure (.expr p.1 first.line, p.2)) := by
  refine .current h ?_
  rw [← Parser.kindAt, if_neg hend]
  exact exprSemi_bind_mirrors h last fun value => .expr value first.line

theorem named_mirrors (h : At us pos ts) (hend : Parser.kindAt last ts ≠ .endOfInput) :
    Mirrors us last (named (us ++ [last]) (ts.headD last) pos) (Parser.named last ts) := by
  rw [named, Parser.named]
  refine .following h ?_
  rw [show (ts.tail.headD last).kind = Parser.kindAt last ts.tail from rfl]
  dsimp only
  by_cases hassign : Parser.kindAt last ts.tail = .assign
  · rw [if_pos hassign, hassign]
    refine .advance h fun h' => .advance h' fun h'' => ?_
    exact exprSemi_bind_mirrors h'' last fun value =>
      .assign (ts.headD last).value value (ts.headD last).line
  rw [if_neg hassign]
  by_cases hsign : Parser.kindAt last ts.tail ∈ [.plusAssign, .minusAssign]
  · rw [if_pos hsign]
    refine .advance h fun h' => .advance h' fun h'' => ?_
    have hcompound (op : BinOp) := exprSemi_bind_mirrors h'' last fun value =>
      .compound (ts.headD last).value op value (ts.headD last).line
    dsimp only
    rw [← Parser.kindAt]
    simp only [List.mem_cons, List.not_mem_nil, or_false] at hsign
    rcases hsign with hsign | hsign <;> rw [hsign]
    · exact hcompound .add
    · exact hcompound .sub
  · rw [if_neg hsign]
    split
    case h_1 hkind => exact absurd hkind hassign
    case h_2 hkind | h_3 hkind => exact absurd (by rw [hkind]; decide) hsign
    case h_4 => exact plain_mirrors h hend _

/-- Within a limit both readings go hand in hand. -/
structure AllMirror (us : List Token) (last : Token) (limit : Nat) : Prop where
  stmts : ∀ (done : List Stmt) {pos : Nat} {ts : List Token}, At us pos ts →
    Mirrors us last (stmtsFrom (us ++ [last]) done limit pos) (Parser.stmtsFrom last done limit ts)
  stmt : ∀ {pos : Nat} {ts : List Token}, At us pos ts → Parser.kindAt last ts ≠ .endOfInput →
    Mirrors us last (stmt (us ++ [last]) limit pos) (Parser.stmt last limit ts)

theorem AllMirror.zero : AllMirror us last 0 where
  stmts _ _ _ _ := .unfinished
  stmt _ _ := .unfinished

theorem AllMirror.succ {limit : Nat} (hall : AllMirror us last limit) :
    AllMirror us last (limit + 1) where
  stmts := by
    intro done pos ts h
    rw [stmtsFrom, Parser.stmtsFrom]
    refine .current h ?_
    rw [← Parser.kindAt]
    split
    case isTrue hstop =>
      simp only [List.mem_cons, List.not_mem_nil, or_false] at hstop
      rcases hstop with hstop | hstop <;> rw [hstop] <;> exact .read h
    case isFalse hstop =>
      have hend : Parser.kindAt last ts ≠ .endOfInput :=
        fun hkind => hstop (by rw [hkind]; decide)
      split
      case h_1 hkind => exact absurd (by rw [hkind]; decide) hstop
      case h_2 hkind => exact absurd hkind hend
      case h_3 => exact (hall.stmt h hend).bind fun h' => hall.stmts _ h'
  stmt := by
    intro pos ts h hend
    rw [Cursor.stmt]
    refine .current h (.accept h (fun hsemi _ h' => ?_) fun hsemi => .current h ?_)
    · rw [Parser.stmt, show (ts.headD last).kind = .semi from hsemi]
      exact .read h'
    dsimp only
    rw [← Parser.kindAt]
    by_cases hdeclared : Parser.kindAt last ts ∈ [.kwConst, .kwInt, .kwVoid]
    · rw [if_pos hdeclared, Parser.stmt_of_kindAt hdeclared]
      refine (decl_mirrors h).bind fun {d pos ts'} h₁ => ?_
      refine .accept h₁ (fun hparen _ h₂ => ?_) fun hparen => ?_
      · dsimp only
        rw [if_pos hparen, if_pos rfl]
        refine (params_mirrors h₂ limit).bind fun h₃ => .expect h₃ .rightParen fun h₄ => ?_
        refine .expect h₄ .leftBrace fun h₅ => .current h₅ ((hall.stmts [] h₅).bind fun h₆ => ?_)
        exact .expect h₆ .rightBrace fun h₇ => .read h₇
      · dsimp only
        rw [if_neg hparen, if_neg Bool.false_ne_true]
        exact variableEnd_mirrors h₁ d _
    rw [if_neg hdeclared]
    refine .accept h (fun hbrace _ h₁ => ?_) fun hbrace => ?_
    · rw [Parser.stmt, show (ts.headD last).kind = .leftBrace from hbrace]
      refine .current h₁ ((hall.stmts [] h₁).bind fun h₂ => ?_)
      exact .expect h₂ .rightBrace fun h₃ => .read h₃
    dsimp only
    rw [if_neg Bool.false_ne_true]
    by_cases hident : Parser.kindAt last ts = .ident
    · rw [if_pos hident, Parser.stmt, show (ts.headD last).kind = .ident from hident]
      exact named_mirrors h hend
    · rw [if_neg hident, Parser.stmt]
      dsimp only
      split
      case h_1 hkind => exact absurd hkind hsemi
      case h_2 hkind | h_3 hkind | h_4 hkind =>
        exact absurd (by rw [Parser.kindAt, hkind]; decide) hdeclared
      case h_5 hkind => exact absurd hkind hbrace
      case h_6 hkind => exact absurd hkind hident
      case h_7 => exact plain_mirrors h hend _

theorem allMirror (us : List Token) (last : Token) (limit : Nat) : AllMirror us last limit := by
  induction limit with
  | zero => exact .zero
  | succ limit ih => exact ih.succ

/-! ## Programs -/

/-- A program read by positions and one read from the tokens that are left end alike. -/
inductive Agrees (tokens : List Token) : Except Halt Block → Except ParseError Block → Prop
  | read {b : Block} : Agrees tokens (.ok b) (.ok b)
  | complaint {c : Complaint} {token : Token} (h : token ∈ tokens) :
      Agrees tokens (.error (.complaint c token)) (.error (.complaint c token))
  | unfinished : Agrees tokens (.error .unfinished) (.error .endless)

theorem Agrees.eq_ok {tokens : List Token} {r : Except Halt Block} {b : Block}
    (h : Agrees tokens r (.ok b)) : r = .ok b := by
  cases h
  rfl

theorem Agrees.eq_error {tokens : List Token} {r : Except Halt Block} {e : ParseError}
    (h : Agrees tokens r (.error e)) (he : e ≠ .endless) :
    ∃ c, ∃ token ∈ tokens, e = .complaint c token ∧ r = .error (.complaint c token) := by
  cases h with
  | complaint h => exact ⟨_, _, h, rfl, rfl⟩
  | unfinished => exact absurd rfl he

/-- **Reading a program by positions never leaves the list**, whatever the last token is and
however small the limit, and asks for no statement at the end of the input. -/
theorem program_agrees (us : List Token) (last : Token) (limit : Nat) :
    Agrees (us ++ [last]) (program (us ++ [last]) limit)
      (do
        let (body, ts) ← Parser.stmtsFrom last [] limit us
        if Parser.kindAt last ts = .endOfInput then return ⟨body, (us.headD last).line⟩
        else Parser.complain last ts .unmatchedBrace) := by
  rw [program, (At.start us).current_eq]
  have hbody := (allMirror us last limit).stmts [] (.start us)
  show Agrees _ (stmtsFrom (us ++ [last]) [] limit 0 >>= _) _
  generalize stmtsFrom (us ++ [last]) [] limit 0 = r at hbody
  generalize Parser.stmtsFrom last [] limit us = q at hbody
  cases hbody with
  | @read body pos ts h =>
      show Agrees _ (current (us ++ [last]) pos >>= _) (if Parser.kindAt last ts = _ then _ else _)
      rw [h.current_eq]
      show Agrees _ (if Parser.kindAt last ts = _ then _ else _) _
      split
      · exact .read
      · exact .complaint h.mem
  | complaint h => exact .complaint h
  | unfinished => exact .unfinished

theorem program_agrees_of_ended {last : Token} (hlast : last.kind ∉ [.semi, .leftBrace])
    (us : List Token) {limit : Nat} (hlimit : 2 * us.length + 1 < limit) :
    Agrees (us ++ [last]) (program (us ++ [last]) limit) (Parser.program last us) := by
  have hagrees := program_agrees us last limit
  rw [Parser.stmtsFrom_limit_eq hlast us hlimit (show 2 * us.length + 1 < 2 * us.length + 4 by omega)]
    at hagrees
  exact hagrees

end Cursor

/-- A list of tokens whose last one is neither a semicolon nor an opening brace. -/
def WellEnded (tokens : List Token) : Prop :=
  ∃ last, tokens.getLast? = some last ∧ last.kind ∉ [.semi, .leftBrace]

/-- The mark of the end is neither. -/
theorem wellEnded_of_tokenize {t : Text} {tokens : List Token} (h : tokenize t = .ok tokens) :
    WellEnded tokens := by
  obtain ⟨found, -, rfl⟩ := exists_scans_of_tokenize h
  have hkind : (endToken t).kind = .endOfInput := rfl
  exact ⟨endToken t, List.getLast?_concat, by rw [hkind]; decide⟩

/-- **The parser comes to an end on every well-ended list of tokens**, such as those of texts:
with a tree, or with a complaint about a token of the list. A reading by positions ends with
the same within every limit from twice the number of tokens on, so it never leaves the list,
is never asked for a statement at the end of the input, and does not go on for ever. -/
theorem parser_terminates :
    (∀ t tokens, tokenize t = .ok tokens → WellEnded tokens) ∧
    ∀ tokens, WellEnded tokens →
      (∃ b, parseTokens tokens = .ok b ∧
        ∀ limit ≥ 2 * tokens.length, Cursor.program tokens limit = .ok b) ∨
      ∃ c, ∃ token ∈ tokens, parseTokens tokens = .error (.complaint c token) ∧
        ∀ limit ≥ 2 * tokens.length,
          Cursor.program tokens limit = .error (.complaint c token) := by
  refine ⟨fun _ _ h => wellEnded_of_tokenize h, ?_⟩
  rintro tokens ⟨last, hlast, hkind⟩
  obtain ⟨us, rfl⟩ := List.getLast?_eq_some_iff.mp hlast
  have hagrees : ∀ limit ≥ 2 * (us ++ [last]).length,
      Cursor.Agrees (us ++ [last]) (Cursor.program (us ++ [last]) limit)
        (Parser.program last us) := by
    intro limit hlimit
    rw [List.length_append, List.length_singleton] at hlimit
    exact Cursor.program_agrees_of_ended hkind us (by omega)
  have hends := Parser.program_ends hkind us
  rw [Parser.parseTokens_concat]
  cases hparse : Parser.program last us with
  | ok b =>
      refine .inl ⟨b, rfl, fun limit hlimit => ?_⟩
      exact (hparse ▸ hagrees limit hlimit).eq_ok
  | error e =>
      have he : e ≠ .endless := fun h => hends (by rw [hparse, h])
      obtain ⟨c, token, htoken, rfl, -⟩ :=
        (hparse ▸ hagrees _ (Nat.le_refl _)).eq_error he
      refine .inr ⟨c, token, htoken, rfl, fun limit hlimit => ?_⟩
      obtain ⟨c', token', -, hsame, hread⟩ := (hparse ▸ hagrees limit hlimit).eq_error he
      cases hsame
      exact hread

/-- A semicolon that is never passed is one empty statement after another. -/
example : parseTokens [⟨.semi, .text [';'], 1, 1⟩] = .error .endless := rfl

/-- A name alone, with no mark of the end behind it, is complained about: the name itself is
still there where a semicolon is expected. -/
theorem parser_terminates_name :
    let name : Token := ⟨.ident, .text ['x'], 1, 1⟩
    WellEnded [name] ∧
      parseTokens [name] = .error (.complaint (.expected .semi) name) ∧
      ∀ limit ≥ 2, Cursor.program [name] limit = .error (.complaint (.expected .semi) name) := by
  intro name
  have hended : WellEnded [name] := ⟨name, rfl, by decide⟩
  refine ⟨hended, rfl, ?_⟩
  rcases parser_terminates.2 [name] hended with ⟨b, hb, -⟩ | ⟨c, token, -, hparse, hread⟩
  · cases hb
  · cases hparse
    exact hread

end IttyBitty.Ibcmc
