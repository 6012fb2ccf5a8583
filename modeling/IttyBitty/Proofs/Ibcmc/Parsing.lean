import IttyBitty.Ibcmc.Parser
import IttyBitty.Proofs.Ibcmc.Grammar

/-!
# Reading expressions and declarations

Each reading function is a relation between the tokens it is given and those it
leaves: what is between them is of the form that the grammar has for it. The other
way round, whatever has that form is read if what stands behind does not go on
with it.

In all of this the last token is the end of the input; it starts and goes on
with nothing.
-/

namespace IttyBitty.Ibcmc

/-! ## Chains of operators -/

/-- Tokens that go on with an expression, and the expression that they make of it. -/
inductive Continues : Expr → List Token → Expr → Prop
  | done {e : Expr} : Continues e [] e
  | more {lhs rhs e : Expr} {sign t : Token} {op : BinOp} {us : List Token}
      (hsign : sign.kind = op.kind) (hrhs : IsTerm t rhs)
      (hmore : Continues (.binary op lhs rhs) us e) : Continues lhs (sign :: t :: us) e

theorem Continues.snoc {lhs rhs e : Expr} {sign t : Token} {op : BinOp} {us : List Token}
    (h : Continues lhs us e) (hsign : sign.kind = op.kind) (hrhs : IsTerm t rhs) :
    Continues lhs (us ++ [sign, t]) (.binary op e rhs) := by
  induction h with
  | done => exact .more hsign hrhs .done
  | more hsign' hrhs' _ ih => exact .more hsign' hrhs' ih

theorem IsExpr.append {ts us : List Token} {lhs e : Expr} (h : IsExpr ts lhs)
    (hmore : Continues lhs us e) : IsExpr (ts ++ us) e := by
  induction hmore generalizing ts with
  | done => rwa [List.append_nil]
  | more hsign hrhs _ ih =>
      have hts := ih (.binary h hsign hrhs)
      rwa [List.append_assoc] at hts

/-- An expression is a term with a chain of operators and terms behind it. -/
theorem isExpr_iff {ts : List Token} {e : Expr} :
    IsExpr ts e ↔ ∃ t lhs us, ts = t :: us ∧ IsTerm t lhs ∧ Continues lhs us e := by
  constructor
  · intro h
    induction h with
    | @term t e hterm => exact ⟨t, e, [], rfl, hterm, .done⟩
    | binary _ hsign hrhs ih =>
        obtain ⟨t, lhs, us, rfl, hterm, hmore⟩ := ih
        exact ⟨t, lhs, _, rfl, hterm, hmore.snoc hsign hrhs⟩
  · rintro ⟨t, lhs, us, rfl, hterm, hmore⟩
    exact (IsExpr.term hterm).append hmore

namespace Parser

/-- What a bind that succeeds has come through. -/
theorem bind_eq_ok_iff {ε α β : Type} {x : Except ε α} {f : α → Except ε β} {b : β} :
    x >>= f = .ok b ↔ ∃ a, x = .ok a ∧ f a = .ok b := by
  cases x with
  | error e =>
      refine ⟨fun h => ?_, fun ⟨_, h, _⟩ => ?_⟩ <;> cases h
  | ok a =>
      refine ⟨fun h => ⟨a, rfl, h⟩, ?_⟩
      rintro ⟨_, h, hf⟩
      cases h
      exact hf

/-! ## Single tokens -/

theorem operator?_eq_some_iff {kind : Kind} {op : BinOp} :
    operator? kind = some op ↔ kind = op.kind := by
  cases kind <;> cases op <;> decide

theorem type?_eq_some_iff {kind : Kind} {type : TypeName} :
    type? kind = some type ↔ kind = type.kind := by
  cases kind <;> cases type <;> decide

theorem term?_eq_some_iff {t : Token} {e : Expr} : term? t = some e ↔ IsTerm t e := by
  constructor
  · intro h
    rw [term?] at h
    split at h
    · rename_i hident
      cases h
      exact .ident hident
    · rename_i hliteral
      cases h
      exact .literal hliteral
    · cases h
  · intro h
    cases h with
    | ident hident => rw [term?, hident]
    | literal hliteral => rw [term?, hliteral]

theorem operator?_of_isTerm {t : Token} {e : Expr} (h : IsTerm t e) : operator? t.kind = none := by
  cases h with
  | ident hident => rw [hident]; rfl
  | literal hliteral => rw [hliteral]; rfl

variable {last : Token}

@[simp]
theorem kindAt_nil : kindAt last [] = last.kind := rfl

@[simp]
theorem kindAt_cons {t : Token} {ts : List Token} : kindAt last (t :: ts) = t.kind := rfl

/-- Only the end of the input is current when no other token is left. -/
theorem exists_cons_of_kindAt (hlast : last.kind = .endOfInput) {kind : Kind} {ts : List Token}
    (h : kindAt last ts = kind) (hkind : kind ≠ .endOfInput) :
    ∃ t us, ts = t :: us ∧ t.kind = kind := by
  cases ts with
  | nil => exact absurd (h.symm.trans hlast) hkind
  | cons t us => exact ⟨t, us, rfl, h⟩

theorem expect_eq_ok_iff (hlast : last.kind = .endOfInput) {kind : Kind}
    (hkind : kind ≠ .endOfInput) {ts rest : List Token} :
    expect last kind ts = .ok rest ↔ ∃ t, ts = t :: rest ∧ t.kind = kind := by
  rw [expect]
  constructor
  · intro h
    split at h
    · rename_i hcurrent
      obtain ⟨t, us, rfl, ht⟩ := exists_cons_of_kindAt hlast hcurrent hkind
      cases h
      exact ⟨t, rfl, ht⟩
    · cases h
  · rintro ⟨t, rfl, ht⟩
    rw [if_pos (by exact ht)]
    rfl

/-! ## Expressions -/

/-- A chain is over where no operator stands. -/
theorem chain_of_stop {lhs : Expr} {rest : List Token}
    (hstop : operator? (kindAt last rest) = none) : chain last lhs rest = .ok (lhs, rest) := by
  cases rest with
  | nil =>
      rw [kindAt_nil] at hstop
      rw [chain, hstop]
      rfl
  | cons t rest =>
      rw [kindAt_cons] at hstop
      rw [chain, hstop]

theorem chain_of_continues {lhs e : Expr} {us rest : List Token} (h : Continues lhs us e)
    (hstop : operator? (kindAt last rest) = none) :
    chain last lhs (us ++ rest) = .ok (e, rest) := by
  induction h with
  | done => exact chain_of_stop hstop
  | more hsign hrhs _ ih =>
      rw [List.cons_append, List.cons_append, chain, operator?_eq_some_iff.mpr hsign]
      simp only [term?_eq_some_iff.mpr hrhs]
      exact ih

/-- A chain goes on behind an operator and a term, wherever the last token is. -/
theorem chain_eq (lhs : Expr) (ts : List Token) :
    chain last lhs ts =
      match operator? (kindAt last ts) with
      | none => .ok (lhs, ts)
      | some op =>
        match term? (ts.tail.headD last) with
        | some rhs => chain last (.binary op lhs rhs) ts.tail.tail
        | none => complain last ts.tail .expectedTerm := by
  -- the last token is not both an operator and a term
  have hlast {e : Expr} (he : term? last = some e) : operator? last.kind = none :=
    operator?_of_isTerm (term?_eq_some_iff.mp he)
  match ts with
  | [] =>
      rw [chain, kindAt, List.headD_nil, List.tail_nil, List.headD_nil]
      cases hop : operator? last.kind with
      | none => rfl
      | some op =>
          cases hterm : term? last with
          | none => rfl
          | some e => exact absurd (hlast hterm) (by rw [hop]; nofun)
  | [t] =>
      rw [chain, kindAt, List.headD_cons, List.tail_cons, List.headD_nil]
      cases operator? t.kind with
      | none => rfl
      | some op =>
          dsimp only
          cases hterm : term? last with
          | none => rfl
          | some e =>
              dsimp only
              rw [List.tail_nil, chain, hlast hterm]
              rfl
  | t :: u :: rest =>
      rw [chain]
      rfl

theorem continues_of_chain (hlast : last.kind = .endOfInput) {lhs e : Expr}
    {ts rest : List Token} (h : chain last lhs ts = .ok (e, rest)) :
    ∃ us, ts = us ++ rest ∧ Continues lhs us e ∧ operator? (kindAt last rest) = none := by
  fun_induction chain last lhs ts with
  | case1 => cases h
  | case2 lhs _ =>
      cases h
      refine ⟨[], rfl, .done, ?_⟩
      rw [kindAt_nil, hlast]
      rfl
  | case3 lhs t ts hnone =>
      cases h
      exact ⟨[], rfl, .done, hnone⟩
  | case4 lhs t op hsome rhs hrhs =>
      -- the end of the input is no term
      rw [term?, hlast] at hrhs
      cases hrhs
  | case5 => cases h
  | case6 lhs t op hsome u ts rhs hrhs ih =>
      obtain ⟨us, rfl, hmore, hstop⟩ := ih h
      exact ⟨t :: u :: us, rfl,
        .more (operator?_eq_some_iff.mp hsome) (term?_eq_some_iff.mp hrhs) hmore, hstop⟩
  | case7 => cases h

theorem expr_of_isExpr {e : Expr} {us rest : List Token} (h : IsExpr us e)
    (hstop : operator? (kindAt last rest) = none) : expr last (us ++ rest) = .ok (e, rest) := by
  obtain ⟨t, lhs, us, rfl, hterm, hmore⟩ := isExpr_iff.mp h
  rw [expr, List.cons_append, List.headD_cons, term?_eq_some_iff.mpr hterm]
  exact chain_of_continues hmore hstop

theorem isExpr_of_expr (hlast : last.kind = .endOfInput) {e : Expr} {ts rest : List Token}
    (h : expr last ts = .ok (e, rest)) : ∃ us, ts = us ++ rest ∧ IsExpr us e := by
  rw [expr] at h
  cases ts with
  | nil =>
      rw [List.headD_nil, show term? last = none by rw [term?, hlast]] at h
      cases h
  | cons t ts =>
      rw [List.headD_cons, List.tail_cons] at h
      cases hterm : term? t with
      | none =>
          rw [hterm] at h
          cases h
      | some lhs =>
          rw [hterm] at h
          obtain ⟨us, rfl, hmore, -⟩ := continues_of_chain hlast h
          exact ⟨t :: us, rfl,
            isExpr_iff.mpr ⟨t, lhs, us, rfl, term?_eq_some_iff.mp hterm, hmore⟩⟩

/-- A semicolon ends an expression. -/
theorem exprSemi_eq_ok_iff (hlast : last.kind = .endOfInput) {e : Expr} {ts rest : List Token} :
    exprSemi last ts = .ok (e, rest) ↔
      ∃ us semi, ts = us ++ semi :: rest ∧ IsExpr us e ∧ semi.kind = .semi := by
  rw [exprSemi, bind_eq_ok_iff]
  constructor
  · rintro ⟨⟨e', ts'⟩, hexpr, hbind⟩
    obtain ⟨us, rfl, hus⟩ := isExpr_of_expr hlast hexpr
    obtain ⟨ts'', hsemi, hok⟩ := bind_eq_ok_iff.mp hbind
    obtain ⟨semi, rfl, hkind⟩ := (expect_eq_ok_iff hlast (by decide)).mp hsemi
    cases hok
    exact ⟨us, semi, rfl, hus, hkind⟩
  · rintro ⟨us, semi, rfl, hus, hkind⟩
    have hstop : operator? (kindAt last (semi :: rest)) = none := by
      rw [kindAt_cons, hkind]
      rfl
    exact ⟨(e, semi :: rest), expr_of_isExpr hus hstop, bind_eq_ok_iff.mpr
      ⟨rest, (expect_eq_ok_iff hlast (by decide)).mpr ⟨semi, rfl, hkind⟩, rfl⟩⟩

/-- What is made of an expression and the semicolon behind it. -/
theorem exprSemi_bind_eq_ok_iff (hlast : last.kind = .endOfInput) (make : Expr → Stmt)
    {s : Stmt} {ts rest : List Token} :
    (exprSemi last ts >>= fun p => pure (make p.1, p.2)) = .ok (s, rest) ↔
      ∃ us semi e, ts = us ++ semi :: rest ∧ IsExpr us e ∧ semi.kind = .semi ∧ s = make e := by
  rw [bind_eq_ok_iff]
  constructor
  · rintro ⟨⟨e, ts'⟩, he, hok⟩
    obtain ⟨us, semi, rfl, hvalue, hsemi⟩ := (exprSemi_eq_ok_iff hlast).mp he
    cases hok
    exact ⟨us, semi, e, rfl, hvalue, hsemi, rfl⟩
  · rintro ⟨us, semi, e, rfl, hvalue, hsemi, rfl⟩
    exact ⟨(e, rest), (exprSemi_eq_ok_iff hlast).mpr ⟨us, semi, rfl, hvalue, hsemi⟩, rfl⟩

/-! ## Declarations -/

theorem decl_of_isDecl (last : Token) {d : Decl} {us : List Token} (rest : List Token)
    (h : IsDecl us d) :
    decl last (us ++ rest) = .ok (d, rest) := by
  cases h with
  | @plain t name type htype hname =>
      have hconst : (t.kind == .kwConst) = false := by
        rw [htype]
        cases type <;> decide
      simp only [decl, kindAt, List.cons_append, List.nil_append, List.headD_cons, List.tail_cons,
        hconst, type?_eq_some_iff.mpr htype, hname, Bool.false_eq_true, if_false, if_true]
  | const hconst htype hname =>
      simp only [decl, kindAt, List.cons_append, List.nil_append, List.headD_cons, List.tail_cons,
        hconst, type?_eq_some_iff.mpr htype, hname, beq_self_eq_true, if_true]

theorem isDecl_of_decl (hlast : last.kind = .endOfInput) {d : Decl} {ts rest : List Token}
    (h : decl last ts = .ok (d, rest)) : ∃ us, ts = us ++ rest ∧ IsDecl us d := by
  -- a type and a name behind it
  have hread {isConst : Bool} {ts : List Token} {type : TypeName}
      (htype : type? (kindAt last ts) = some type)
      (h : (if (ts.tail.headD last).kind = Kind.ident then
          .ok (⟨isConst, type, (ts.tail.headD last).value⟩, ts.tail.tail)
        else complain last ts.tail .expectedName : Except ParseError (Decl × List Token))
        = .ok (d, rest)) :
      ∃ t name, ts = t :: name :: rest ∧ t.kind = TypeName.kind type ∧ name.kind = .ident ∧
        d = ⟨isConst, type, name.value⟩ := by
    rcases ts with _ | ⟨t, _ | ⟨name, ts⟩⟩
    · rw [kindAt_nil, hlast] at htype
      cases htype
    · rw [List.tail_cons, List.headD_nil, hlast] at h
      cases h
    · rw [List.tail_cons, List.headD_cons] at h
      split at h
      · rename_i hname
        cases h
        exact ⟨t, name, rfl, type?_eq_some_iff.mp htype, hname, rfl⟩
      · cases h
  rw [decl] at h
  cases hconst : (kindAt last ts == .kwConst) with
  | false =>
      simp only [hconst, Bool.false_eq_true, if_false] at h
      split at h
      · cases h
      · rename_i htype
        obtain ⟨t, name, rfl, htype, hname, rfl⟩ := hread htype h
        exact ⟨[t, name], rfl, .plain htype hname⟩
  | true =>
      simp only [hconst, if_true] at h
      split at h
      · cases h
      · obtain ⟨t, name, hts, htype, hname, rfl⟩ := hread (by assumption) h
        cases ts with
        | nil => cases hts
        | cons c ts =>
            obtain rfl : ts = _ := hts
            have hkind : c.kind = .kwConst := by simpa [kindAt] using hconst
            exact ⟨[c, t, name], rfl, .const hkind htype hname⟩

/-- A declaration starts with `const` or with a type. -/
theorem isDecl_head {d : Decl} {us : List Token} (h : IsDecl us d) :
    ∃ t ts, us = t :: ts ∧ t.kind ∈ [.kwConst, .kwInt, .kwVoid] := by
  cases h with
  | @plain t name type htype =>
      refine ⟨t, _, rfl, ?_⟩
      rw [htype]
      cases type <;> decide
  | @const c _ _ _ hconst =>
      refine ⟨c, _, rfl, ?_⟩
      rw [hconst]
      decide

/-! ## Parameters -/

theorem paramsFrom_of_isParams {ds done : List Decl} {us rest : List Token} {limit : Nat}
    (h : IsParams us ds) (hlimit : us.length ≤ limit) (hstop : kindAt last rest ≠ .comma) :
    paramsFrom last done limit (us ++ rest) = .ok (done.reverse ++ ds, rest) := by
  induction h generalizing done limit with
  | @one us d hdecl hvoid =>
      obtain ⟨t, ts, rfl, -⟩ := isDecl_head hdecl
      obtain ⟨limit, rfl⟩ : ∃ n, limit = n + 1 := Nat.exists_eq_succ_of_ne_zero (by
        rintro rfl
        simp at hlimit)
      rw [paramsFrom]
      refine bind_eq_ok_iff.mpr ⟨(d, rest), decl_of_isDecl last _ hdecl, ?_⟩
      dsimp only
      rw [if_neg hvoid, if_neg hstop, List.reverse_cons]
      rfl
  | @more us vs comma d ds hdecl hvoid hcomma hmore ih =>
      rw [List.length_append, List.length_cons] at hlimit
      obtain ⟨limit, rfl⟩ : ∃ n, limit = n + 1 := Nat.exists_eq_succ_of_ne_zero (by omega)
      rw [List.append_assoc, List.cons_append, paramsFrom]
      refine bind_eq_ok_iff.mpr ⟨(d, comma :: (vs ++ rest)), decl_of_isDecl last _ hdecl, ?_⟩
      dsimp only
      rw [if_neg hvoid, if_pos (by exact hcomma), List.tail_cons, ih (by omega),
        List.reverse_cons, List.append_assoc]
      rfl

theorem isParams_of_paramsFrom (hlast : last.kind = .endOfInput) {ds done : List Decl}
    {ts rest : List Token} {limit : Nat} (h : paramsFrom last done limit ts = .ok (ds, rest)) :
    ∃ us more, ts = us ++ rest ∧ ds = done.reverse ++ more ∧ IsParams us more := by
  induction limit generalizing done ts with
  | zero => cases h
  | succ limit ih =>
      rw [paramsFrom] at h
      obtain ⟨⟨d, ts'⟩, hd, hrest⟩ := bind_eq_ok_iff.mp h
      obtain ⟨us, rfl, hdecl⟩ := isDecl_of_decl hlast hd
      dsimp only at hrest
      split at hrest
      · cases hrest
      · rename_i hvoid
        split at hrest
        · rename_i hcomma
          obtain ⟨vs, more, hts', rfl, hmore⟩ := ih hrest
          obtain ⟨comma, ts', rfl, hcomma⟩ := exists_cons_of_kindAt hlast hcomma (by decide)
          obtain rfl : ts' = vs ++ rest := hts'
          exact ⟨us ++ comma :: vs, d :: more, by simp, by simp,
            .more hdecl hvoid hcomma hmore⟩
        · cases hrest
          exact ⟨us, [d], rfl, by simp, .one hdecl hvoid⟩

theorem params_of_isParamList {ds : List Decl} {us rest : List Token} {right : Token}
    {limit : Nat} (h : IsParamList us ds) (hlimit : us.length ≤ limit)
    (hright : right.kind = .rightParen) :
    params last limit (us ++ right :: rest) = .ok (ds, right :: rest) := by
  have hkind : kindAt last (right :: rest) = .rightParen := hright
  cases h with
  | none => rw [params, List.nil_append, if_pos hkind]
  | some hparams =>
      have hfirst : kindAt last (us ++ right :: rest) ≠ .rightParen := by
        have hhead : ∃ t ts, us = t :: ts ∧ t.kind ∈ [.kwConst, .kwInt, .kwVoid] := by
          cases hparams with
          | one hdecl => exact isDecl_head hdecl
          | more hdecl =>
              obtain ⟨t, ts, rfl, ht⟩ := isDecl_head hdecl
              exact ⟨t, _, rfl, ht⟩
        obtain ⟨t, ts, rfl, ht⟩ := hhead
        rw [List.cons_append, kindAt_cons]
        rintro h
        rw [h] at ht
        exact absurd ht (by decide)
      rw [params, if_neg hfirst]
      exact paramsFrom_of_isParams hparams hlimit (by rw [hkind]; decide)

theorem isParamList_of_params (hlast : last.kind = .endOfInput) {ds : List Decl}
    {ts rest : List Token} {limit : Nat} (h : params last limit ts = .ok (ds, rest)) :
    ∃ us, ts = us ++ rest ∧ IsParamList us ds := by
  rw [params] at h
  split at h
  · cases h
    exact ⟨[], rfl, .none⟩
  · obtain ⟨us, more, rfl, rfl, hparams⟩ := isParams_of_paramsFrom hlast h
    exact ⟨us, rfl, .some hparams⟩

/-! ## Statements without a body -/

/-- What stands behind the declaration of a variable makes a statement of it. -/
theorem isStmt_of_variableEnd (hlast : last.kind = .endOfInput) {d : Decl} {s : Stmt}
    {us ts rest : List Token} (hdecl : IsDecl us d)
    (h : variableEnd last d (lineOf us) ts = .ok (s, rest)) :
    ∃ vs, ts = vs ++ rest ∧ IsStmt (us ++ vs) s := by
  rw [variableEnd] at h
  split at h
  · cases h
  · rename_i hvoid
    split at h
    · rename_i hsemi
      obtain ⟨semi, ts, rfl, hsemi⟩ := exists_cons_of_kindAt hlast hsemi (by decide)
      cases h
      exact ⟨[semi], rfl, .decl hdecl hvoid hsemi⟩
    · rename_i hequals
      obtain ⟨equals, ts, rfl, hequals⟩ := exists_cons_of_kindAt hlast hequals (by decide)
      obtain ⟨vs, semi, e, hts, hvalue, hsemi, rfl⟩ :=
        (exprSemi_bind_eq_ok_iff hlast fun e => .init d e (lineOf us)).mp h
      obtain rfl : ts = _ := hts
      exact ⟨equals :: (vs ++ [semi]), by simp, .init hdecl hvoid hequals hvalue hsemi⟩
    · cases h

/-- A statement that is an expression is on the line of its first token. -/
theorem isStmt_of_exprSemi (hlast : last.kind = .endOfInput) {s : Stmt} {t : Token}
    {ts rest : List Token} (h : (exprSemi last (t :: ts) >>= fun p =>
      pure (.expr p.1 t.line, p.2)) = .ok (s, rest)) :
    ∃ us, t :: ts = us ++ rest ∧ IsStmt us s := by
  obtain ⟨us, semi, e, hts, hvalue, hsemi, rfl⟩ :=
    (exprSemi_bind_eq_ok_iff hlast fun e => .expr e t.line).mp h
  obtain ⟨t', lhs, us', rfl, -⟩ := isExpr_iff.mp hvalue
  obtain ⟨rfl, -⟩ := List.cons.inj hts
  exact ⟨t :: us' ++ [semi], by simp [hts], .expr hvalue hsemi⟩

/-- A statement that starts with a name assigns to it or is an expression. -/
theorem isStmt_of_named (hlast : last.kind = .endOfInput) {s : Stmt} {name : Token}
    {ts rest : List Token} (hname : name.kind = .ident)
    (h : named last (name :: ts) = .ok (s, rest)) :
    ∃ us, name :: ts = us ++ rest ∧ IsStmt us s := by
  rw [named] at h
  simp only [List.tail_cons, List.headD_cons] at h
  have hcompound (op : BinOp) (hsign : kindAt last ts = op.assignKind)
      (h : (exprSemi last ts.tail >>= fun p =>
        pure (.compound name.value op p.1 name.line, p.2)) = .ok (s, rest)) :
      ∃ us, name :: ts = us ++ rest ∧ IsStmt us s := by
    obtain ⟨sign, ts, rfl, hsign⟩ :=
      exists_cons_of_kindAt hlast hsign (by cases op <;> decide)
    obtain ⟨us, semi, e, hts, hvalue, hsemi, rfl⟩ :=
      (exprSemi_bind_eq_ok_iff hlast fun e => .compound name.value op e name.line).mp h
    obtain rfl : ts = _ := hts
    exact ⟨name :: sign :: (us ++ [semi]), by simp, .compound hname hsign hvalue hsemi⟩
  split at h
  · rename_i hequals
    obtain ⟨equals, ts, rfl, hequals⟩ := exists_cons_of_kindAt hlast hequals (by decide)
    obtain ⟨us, semi, e, hts, hvalue, hsemi, rfl⟩ :=
      (exprSemi_bind_eq_ok_iff hlast fun e => .assign name.value e name.line).mp h
    obtain rfl : ts = _ := hts
    exact ⟨name :: equals :: (us ++ [semi]), by simp, .assign hname hequals hvalue hsemi⟩
  · rename_i hsign
    exact hcompound .add hsign h
  · rename_i hsign
    exact hcompound .sub hsign h
  · exact isStmt_of_exprSemi hlast h

end Parser

end IttyBitty.Ibcmc
