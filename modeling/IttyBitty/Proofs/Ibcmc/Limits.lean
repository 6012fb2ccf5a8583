import IttyBitty.Proofs.Ibcmc.Programs

/-!
# Limits of the parser

Reading statements and parameters counts a limit down. The limit takes no part in
what is read: a result is the same with every larger limit, unless the smaller one
ran out (`stmtsFrom_settles`), and none runs out of a limit above twice the number of
tokens, unless the last token is a statement or opens one (`stmtsFrom_finishes`).
-/

namespace IttyBitty.Ibcmc

namespace Parser

variable {last : Token}

/-! ## Larger limits -/

/-- The second result is the first, unless that one ran out of its limit. -/
def Settles {α : Type} (r r' : Except ParseError α) : Prop := r ≠ .error .endless → r' = r

section Settles

variable {α β : Type} {r r' : Except ParseError α} {f f' : α → Except ParseError β}

theorem Settles.refl (r : Except ParseError α) : Settles r r := fun _ => rfl

theorem Settles.bind (h : Settles r r') (hf : ∀ a, Settles (f a) (f' a)) :
    Settles (r >>= f) (r' >>= f') := by
  intro hends
  cases r with
  | error e =>
      rw [h (fun he => hends (by rw [he]; rfl))]
      rfl
  | ok a =>
      rw [h nofun]
      exact hf a hends

end Settles

theorem paramsFrom_settles {limit limit' : Nat} (hlimit : limit ≤ limit') (done : List Decl)
    (ts : List Token) :
    Settles (paramsFrom last done limit ts) (paramsFrom last done limit' ts) := by
  induction limit generalizing limit' done ts with
  | zero => exact fun hends => absurd rfl hends
  | succ limit ih =>
      obtain ⟨limit', rfl⟩ := Nat.exists_eq_add_of_le' hlimit
      rw [paramsFrom, ← Nat.add_assoc, paramsFrom]
      apply (Settles.refl (decl last ts)).bind
      rintro ⟨param, rest⟩
      dsimp only
      split
      · exact .refl _
      · split
        · exact ih (by omega) _ _
        · exact .refl _

theorem params_settles {limit limit' : Nat} (hlimit : limit ≤ limit') (ts : List Token) :
    Settles (params last limit ts) (params last limit' ts) := by
  rw [params, params]
  split
  · exact .refl _
  · exact paramsFrom_settles hlimit [] ts

/-- A larger limit keeps whatever is read within a limit. -/
structure Settled (last : Token) (limit : Nat) : Prop where
  stmts : ∀ {limit' : Nat}, limit ≤ limit' → ∀ (done : List Stmt) (ts : List Token),
    Settles (stmtsFrom last done limit ts) (stmtsFrom last done limit' ts)
  stmt : ∀ {limit' : Nat}, limit ≤ limit' → ∀ ts : List Token,
    Settles (stmt last limit ts) (stmt last limit' ts)

theorem Settled.zero : Settled last 0 where
  stmts _ _ _ hends := absurd rfl hends
  stmt _ _ hends := absurd rfl hends

theorem Settled.declared {limit limit' : Nat} (h : Settled last limit) (hlimit : limit ≤ limit')
    (ts : List Token) : Settles (declared last limit ts) (declared last limit' ts) := by
  apply (Settles.refl (decl last ts)).bind
  rintro ⟨d, rest⟩
  dsimp only
  split
  · apply (params_settles hlimit rest.tail).bind
    intro params
    apply (Settles.refl (expect last .rightParen params.2)).bind
    intro ts
    apply (Settles.refl (expect last .leftBrace ts)).bind
    intro ts
    apply (h.stmts hlimit [] ts).bind
    exact fun body => .refl _
  · exact .refl _

theorem Settled.succ {limit : Nat} (h : Settled last limit) : Settled last (limit + 1) where
  stmts := by
    intro limit' hlimit done ts
    obtain ⟨limit', rfl⟩ := Nat.exists_eq_add_of_le' hlimit
    rw [← Nat.add_assoc, stmtsFrom, stmtsFrom]
    split
    case h_1 | h_2 => exact .refl _
    case h_3 =>
      apply (h.stmt (by omega) ts).bind
      exact fun s => h.stmts (by omega) _ _
  stmt := by
    intro limit' hlimit ts
    obtain ⟨limit', rfl⟩ := Nat.exists_eq_add_of_le' hlimit
    rw [← Nat.add_assoc]
    by_cases hdeclared : kindAt last ts ∈ [.kwConst, .kwInt, .kwVoid]
    · rw [stmt_of_kindAt hdeclared, stmt_of_kindAt hdeclared]
      exact h.declared (by omega) ts
    · rw [Parser.stmt, Parser.stmt]
      dsimp only
      split
      case h_2 hkind | h_3 hkind | h_4 hkind =>
        exact absurd (by rw [kindAt, hkind]; decide) hdeclared
      case h_5 =>
        apply (h.stmts (by omega) [] ts.tail).bind
        exact fun body => .refl _
      all_goals exact .refl _

theorem settled (last : Token) (limit : Nat) : Settled last limit := by
  induction limit with
  | zero => exact .zero
  | succ limit ih => exact ih.succ

/-- **What is read within a limit** is read within every larger one. -/
theorem stmtsFrom_settles {limit limit' : Nat} (hlimit : limit ≤ limit') (done : List Stmt)
    (ts : List Token) :
    Settles (stmtsFrom last done limit ts) (stmtsFrom last done limit' ts) :=
  (settled last limit).stmts hlimit done ts

/-! ## Large enough limits -/

/-- A reading comes to an end: with a complaint, or with fewer than `n` tokens left. -/
inductive Finishes {α : Type} (n : Nat) : Except ParseError (α × List Token) → Prop
  | read {a : α} {rest : List Token} (h : rest.length < n) : Finishes n (.ok (a, rest))
  | complaint {c : Complaint} {token : Token} : Finishes n (.error (.complaint c token))

section Finishes

variable {α β : Type} {m n : Nat} {ts : List Token} {r : Except ParseError (α × List Token)}

theorem Finishes.ne_endless (h : Finishes n r) : r ≠ .error .endless := by
  rintro rfl
  cases h

theorem Finishes.mono (h : Finishes n r) (hle : n ≤ m) : Finishes m r := by
  cases h with
  | read h => exact .read (by omega)
  | complaint => exact .complaint

theorem Finishes.bind {f : α × List Token → Except ParseError (β × List Token)}
    (h : Finishes n r) (hf : ∀ a rest, rest.length < n → Finishes m (f (a, rest))) :
    Finishes m (r >>= f) := by
  cases h with
  | read h => exact hf _ _ h
  | complaint => exact .complaint

theorem Finishes.expect {kind : Kind} {f : List Token → Except ParseError (α × List Token)}
    (hf : kindAt last ts = kind → Finishes n (f ts.tail)) :
    Finishes n (expect last kind ts >>= f) := by
  rw [Parser.expect]
  split
  · rename_i hkind
    exact hf hkind
  · exact .complaint

end Finishes

theorem chain_finishes (lhs : Expr) (ts : List Token) :
    Finishes (ts.length + 1) (chain last lhs ts) := by
  fun_induction chain last lhs ts with
  | case2 | case3 | case4 => exact .read (by simp)
  | case6 _ _ _ _ _ _ _ _ ih => exact ih.mono (by simp)
  | case1 | case5 | case7 => exact .complaint

/-- No token is a term and the semicolon behind it. -/
theorem exprSemi_finishes (ts : List Token) : Finishes ts.length (exprSemi last ts) := by
  rw [exprSemi, expr]
  cases hterm : term? (ts.headD last) with
  | none => exact .complaint
  | some e =>
      refine (chain_finishes e ts.tail).bind fun e rest hrest => .expect fun hkind => ?_
      cases ts with
      | nil =>
          obtain rfl : rest = [] := by simpa using hrest
          rw [List.headD_nil, term?, show last.kind = .semi from hkind] at hterm
          cases hterm
      | cons t ts =>
          refine .read ?_
          simp at hrest ⊢
          omega

/-- No token is a type and the name behind it. -/
theorem decl_finishes (ts : List Token) : Finishes ts.length (decl last ts) := by
  rw [decl]
  dsimp only
  cases ts with
  | nil =>
      rw [List.tail_nil, ite_self, List.tail_nil, List.headD_nil]
      split
      · exact .complaint
      · rename_i htype
        split
        · rename_i hident
          rw [kindAt, List.headD_nil, hident] at htype
          cases htype
        · exact .complaint
  | cons t ts =>
      have hrest : (if (kindAt last (t :: ts) == Kind.kwConst) = true then ts else t :: ts).length ≤
          ts.length + 1 := by
        split <;> simp
      rw [List.tail_cons]
      generalize (if (kindAt last (t :: ts) == Kind.kwConst) = true then ts else t :: ts) = us
        at hrest
      split
      · exact .complaint
      · split
        · refine .read ?_
          simp
          omega
        · exact .complaint

theorem paramsFrom_finishes {done : List Decl} {limit : Nat} {ts : List Token}
    (hlimit : ts.length < limit) : Finishes (ts.length + 1) (paramsFrom last done limit ts) := by
  induction limit generalizing done ts with
  | zero => exact absurd hlimit (Nat.not_lt_zero _)
  | succ limit ih =>
      refine (decl_finishes ts).bind fun param rest hrest => ?_
      dsimp only
      have htail : rest.tail.length ≤ rest.length := by simp
      split
      · exact .complaint
      · split
        · exact (ih (by omega)).mono (by omega)
        · exact .read (by omega)

theorem params_finishes {limit : Nat} {ts : List Token} (hlimit : ts.length < limit) :
    Finishes (ts.length + 1) (params last limit ts) := by
  rw [params]
  split
  · exact .read (Nat.lt_succ_self _)
  · exact paramsFrom_finishes hlimit

theorem variableEnd_finishes (d : Decl) (line : Int) (ts : List Token) :
    Finishes (ts.length + 1) (variableEnd last d line ts) := by
  have htail : ts.tail.length ≤ ts.length := by simp
  rw [variableEnd]
  split
  · exact .complaint
  · split
    · exact .read (by omega)
    · exact (exprSemi_finishes ts.tail).bind fun e rest hrest => .read (by omega)
    · exact .complaint

theorem named_finishes (ts : List Token) : Finishes ts.length (named last ts) := by
  have htail : ts.tail.tail.length ≤ ts.length := by
    rw [List.length_tail, List.length_tail]
    omega
  rw [named]
  dsimp only
  split
  case h_4 => exact (exprSemi_finishes ts).bind fun e rest hrest => .read hrest
  all_goals
    exact (exprSemi_finishes ts.tail.tail).bind fun e rest hrest => .read (hrest.trans_le htail)

/-- A limit above twice the number of tokens is enough: every statement takes a token, and
the last token is no statement alone. -/
structure Ample (last : Token) (limit : Nat) : Prop where
  stmts : ∀ (done : List Stmt) {ts : List Token}, 2 * ts.length + 1 < limit →
    Finishes (ts.length + 1) (stmtsFrom last done limit ts)
  stmt : ∀ {ts : List Token}, 2 * ts.length < limit → Finishes ts.length (stmt last limit ts)

theorem Ample.zero : Ample last 0 where
  stmts _ _ hlimit := absurd hlimit (Nat.not_lt_zero _)
  stmt hlimit := absurd hlimit (Nat.not_lt_zero _)

theorem Ample.braced {limit : Nat} (h : Ample last limit) {α : Type} {ts : List Token}
    (hlimit : 2 * ts.length + 1 < limit) (f : List Stmt → α) :
    Finishes (ts.length + 1) (stmtsFrom last [] limit ts >>= fun p =>
      expect last .rightBrace p.2 >>= fun rest => pure (f p.1, rest)) := by
  refine (h.stmts [] hlimit).bind fun body rest hrest => .expect fun _ => .read ?_
  dsimp only
  rw [List.length_tail]
  omega

theorem Ample.functionEnd {limit : Nat} (h : Ample last limit) (d : Decl) (line : Int)
    {ts : List Token} (hlimit : 2 * ts.length + 1 < limit) :
    Finishes (ts.length + 1) (functionEnd last limit d line ts) := by
  refine (params_finishes (by omega)).bind fun ds rest hrest => .expect fun _ => .expect fun _ => ?_
  have htail : rest.tail.tail.length ≤ rest.length := by
    rw [List.length_tail, List.length_tail]
    omega
  have hbraced := h.braced (show 2 * rest.tail.tail.length + 1 < limit by omega) fun body =>
    Stmt.function d ds body (rest.tail.tail.headD last).line line
  exact hbraced.mono (by omega)

theorem Ample.declared {limit : Nat} (h : Ample last limit) {ts : List Token}
    (hlimit : 2 * ts.length ≤ limit) : Finishes ts.length (declared last limit ts) := by
  refine (decl_finishes ts).bind fun d rest hrest => ?_
  dsimp only
  have htail : rest.tail.length ≤ rest.length := by simp
  split
  · exact (h.functionEnd d _ (by omega)).mono (by omega)
  · exact (variableEnd_finishes d _ rest).mono (by omega)

theorem Ample.succ {limit : Nat} (h : Ample last limit)
    (hlast : last.kind ∉ [.semi, .leftBrace]) : Ample last (limit + 1) where
  stmts := by
    intro done ts hlimit
    rw [stmtsFrom]
    split
    case h_1 | h_2 => exact .read (Nat.lt_succ_self _)
    case h_3 =>
      refine (h.stmt (by omega)).bind fun s rest hrest => ?_
      exact (h.stmts (s :: done) (by omega)).mono (by omega)
  stmt := by
    intro ts hlimit
    by_cases hdeclared : kindAt last ts ∈ [.kwConst, .kwInt, .kwVoid]
    · rw [stmt_of_kindAt hdeclared]
      exact h.declared (by omega)
    -- a statement that is one token or starts with a brace is not at the last token
    have hpasses : kindAt last ts ∈ [.semi, .leftBrace] → ts.tail.length < ts.length := by
      intro hkind
      cases ts with
      | nil => exact absurd hkind hlast
      | cons t ts => exact Nat.lt_succ_self _
    rw [Parser.stmt]
    dsimp only
    split
    case h_1 hkind => exact .read (hpasses (by rw [kindAt, hkind]; decide))
    case h_2 hkind | h_3 hkind | h_4 hkind =>
      exact absurd (by rw [kindAt, hkind]; decide) hdeclared
    case h_5 hkind =>
      have htail := hpasses (by rw [kindAt, hkind]; decide)
      exact (h.braced (by omega) fun body => Stmt.block body (ts.headD last).line).mono (by omega)
    case h_6 => exact named_finishes ts
    case h_7 => exact (exprSemi_finishes ts).bind fun e rest hrest => .read hrest

theorem ample (hlast : last.kind ∉ [.semi, .leftBrace]) (limit : Nat) : Ample last limit := by
  induction limit with
  | zero => exact .zero
  | succ limit ih => exact ih.succ hlast

/-- **The limit of a program is never reached** in front of a token that is neither a
semicolon nor an opening brace. -/
theorem stmtsFrom_finishes (hlast : last.kind ∉ [.semi, .leftBrace]) (done : List Stmt)
    {limit : Nat} {ts : List Token} (hlimit : 2 * ts.length + 1 < limit) :
    Finishes (ts.length + 1) (stmtsFrom last done limit ts) :=
  (ample hlast limit).stmts done hlimit

/-- Above twice the number of tokens no limit matters. -/
theorem stmtsFrom_limit_eq (hlast : last.kind ∉ [.semi, .leftBrace]) (ts : List Token)
    {limit limit' : Nat} (h : 2 * ts.length + 1 < limit) (h' : 2 * ts.length + 1 < limit') :
    stmtsFrom last [] limit ts = stmtsFrom last [] limit' ts := by
  have hends := (stmtsFrom_finishes hlast []
    (show 2 * ts.length + 1 < 2 * ts.length + 2 by omega)).ne_endless
  rw [stmtsFrom_settles h [] ts hends, stmtsFrom_settles h' [] ts hends]

theorem not_mem_of_endOfInput (hlast : last.kind = .endOfInput) :
    last.kind ∉ [.semi, .leftBrace] := by
  rw [hlast]
  decide

theorem stmtsFrom_ne_endless (hlast : last.kind = .endOfInput) {done : List Stmt} {limit : Nat}
    {ts : List Token} (hlimit : 2 * ts.length + 1 < limit) :
    stmtsFrom last done limit ts ≠ .error .endless :=
  (stmtsFrom_finishes (not_mem_of_endOfInput hlast) done hlimit).ne_endless

/-- A program is read to its end. -/
theorem program_ends (hlast : last.kind ∉ [.semi, .leftBrace]) (ts : List Token) :
    program last ts ≠ .error .endless := by
  rw [program]
  have hbody := stmtsFrom_finishes hlast [] (show 2 * ts.length + 1 < 2 * ts.length + 4 by omega)
  generalize stmtsFrom last [] (2 * ts.length + 4) ts = r at hbody
  cases hbody with
  | complaint => rintro ⟨⟩
  | @read body rest =>
      show (if kindAt last rest = .endOfInput then _ else _) ≠ _
      split <;> rintro ⟨⟩

theorem program_ne_endless (hlast : last.kind = .endOfInput) (ts : List Token) :
    program last ts ≠ .error .endless :=
  program_ends (not_mem_of_endOfInput hlast) ts

end Parser

end IttyBitty.Ibcmc
