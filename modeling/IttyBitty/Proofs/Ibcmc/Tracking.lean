import IttyBitty.Proofs.Ibcmc.Automaton
import IttyBitty.Proofs.Ibcmc.Programs

/-!
# The parser goes from state to state

Every token that the parser passes leads on to the next state, and a complaint is
about a token that its state refuses: each reading function is followed from the state
it starts in (`Parser.Tracks`) to the one that it leaves. Here the last token may be
any token, which is passed as often as it is read.
-/

namespace IttyBitty.Ibcmc

namespace Parser

variable {last : Token} {s s' s'' : State} {ts ts' rest : List Token}

/-! ## Steps -/

/-- Tokens are passed, each leading on to the next state. -/
inductive Steps (last : Token) : State → List Token → State → List Token → Prop
  | done {s : State} {ts : List Token} : Steps last s ts s ts
  | token {s s' s'' : State} {ts rest : List Token} (hnext : s.next (kindAt last ts) = some s')
      (h : Steps last s' ts.tail s'' rest) : Steps last s ts s'' rest

theorem Steps.trans (h : Steps last s ts s' ts') (h' : Steps last s' ts' s'' rest) :
    Steps last s ts s'' rest := by
  induction h with
  | done => exact h'
  | token hnext _ ih => exact .token hnext (ih h')

/-- What is read leads on from the state, and what is wrong is refused by some state on
the way. -/
inductive Tracks (last : Token) (s : State) (ts : List Token) {α : Type}
    (Q : α → State → List Token → Prop) : Except ParseError (α × List Token) → Prop
  | read {a : α} {s' : State} {rest : List Token} (h : Steps last s ts s' rest)
      (hread : Q a s' rest) : Tracks last s ts Q (.ok (a, rest))
  | stuck {c : Complaint} {s' : State} {rest : List Token} (h : Steps last s ts s' rest)
      (hrefuses : s'.Refuses (kindAt last rest)) :
      Tracks last s ts Q (.error (.complaint c (rest.headD last)))
  | endless : Tracks last s ts Q (.error .endless)

section Tracks

variable {α β : Type} {Q Q' : α → State → List Token → Prop} {P : β → State → List Token → Prop}
  {r : Except ParseError (α × List Token)}

theorem Tracks.after (h : Steps last s ts s' ts') (ht : Tracks last s' ts' Q r) :
    Tracks last s ts Q r := by
  cases ht with
  | read h' hread => exact .read (h.trans h') hread
  | stuck h' hrefuses => exact .stuck (h.trans h') hrefuses
  | endless => exact .endless

theorem Tracks.token (hnext : s.next (kindAt last ts) = some s')
    (ht : Tracks last s' ts.tail Q r) : Tracks last s ts Q r :=
  .after (.token hnext .done) ht

theorem Tracks.imp (h : Tracks last s ts Q r) (hQ : ∀ a s' rest, Q a s' rest → Q' a s' rest) :
    Tracks last s ts Q' r := by
  cases h with
  | read h hread => exact .read h (hQ _ _ _ hread)
  | stuck h hrefuses => exact .stuck h hrefuses
  | endless => exact .endless

theorem Tracks.bind {f : α × List Token → Except ParseError (β × List Token)}
    (h : Tracks last s ts Q r)
    (hf : ∀ {a s' rest}, Q a s' rest → Tracks last s' rest P (f (a, rest))) :
    Tracks last s ts P (r >>= f) := by
  cases h with
  | read h hread => exact .after h (hf hread)
  | stuck h hrefuses => exact .stuck h hrefuses
  | endless => exact .endless

theorem Tracks.complain (hrefuses : s.Refuses (kindAt last ts)) (c : Complaint) :
    Tracks last s ts Q (complain last ts c) :=
  .stuck .done hrefuses

theorem Tracks.expect {kind : Kind} {f : List Token → Except ParseError (α × List Token)}
    (hnext : s.next kind = some s')
    (hrefuses : kindAt last ts ≠ kind → s.Refuses (kindAt last ts))
    (hf : Tracks last s' ts.tail Q (f ts.tail)) :
    Tracks last s ts Q (expect last kind ts >>= f) := by
  rw [Parser.expect]
  split
  · rename_i hkind
    exact .token (hkind ▸ hnext) hf
  · rename_i hkind
    exact .stuck .done (hrefuses hkind)

end Tracks

/-- Inside a statement, what leads nowhere is refused. -/
theorem refuses_of_stage {kind : Kind} (hstage : s.stage ≠ .statement)
    (hnext : s.next kind = none) : s.Refuses kind := by
  refine ⟨hnext, ?_⟩
  rintro rfl
  exact absurd rfl hstage

/-! ## Expressions -/

section Expressions

variable {depth : Nat}

theorem next_of_isTerm {t : Token} {e : Expr} (h : IsTerm t e) :
    (⟨depth, .term⟩ : State).next t.kind = some ⟨depth, .operator⟩ := by
  cases h with
  | ident hident => rw [hident]; rfl
  | literal hliteral => rw [hliteral]; rfl

theorem term_refuses {t : Token} (h : term? t = none) :
    (⟨depth, .term⟩ : State).Refuses t.kind := by
  apply refuses_of_stage (show Stage.term ≠ .statement by decide)
  rw [term?] at h
  cases hkind : t.kind with
  | ident | intLiteral =>
      rw [hkind] at h
      cases h
  | _ => rfl

theorem term_refuses_operator {op : BinOp} : (⟨depth, .term⟩ : State).Refuses op.kind := by
  apply refuses_of_stage (show Stage.term ≠ .statement by decide)
  cases op <;> rfl

theorem next_operator (op : BinOp) :
    (⟨depth, .operator⟩ : State).next op.kind = some ⟨depth, .term⟩ := by
  cases op <;> rfl

theorem operator_refuses {kind : Kind} (hsign : operator? kind = none) (hsemi : kind ≠ .semi) :
    (⟨depth, .operator⟩ : State).Refuses kind := by
  apply refuses_of_stage (show Stage.operator ≠ .statement by decide)
  cases kind with
  | plus | minus => cases hsign
  | semi => exact absurd rfl hsemi
  | _ => rfl

/-- A chain starts where an operator may stand, and ends where none does. -/
theorem chain_tracks (hsign : ∀ op : BinOp, s.next op.kind = some ⟨depth, .term⟩) (lhs : Expr)
    (ts : List Token) :
    Tracks last s ts (fun _ s' rest => (s' = s ∧ rest = ts ∨ s' = ⟨depth, .operator⟩) ∧
      operator? (kindAt last rest) = none) (chain last lhs ts) := by
  fun_induction chain last lhs ts generalizing s with
  | case1 lhs hop =>
      obtain ⟨op, hop⟩ := Option.isSome_iff_exists.mp hop
      have hkind : kindAt last [] = op.kind := operator?_eq_some_iff.mp hop
      refine .token (hkind ▸ hsign op) (.complain ?_ _)
      rw [List.tail_nil, hkind]
      exact term_refuses_operator
  | case2 lhs hop =>
      rw [Bool.not_eq_true, Option.isSome_eq_false_iff, Option.isNone_iff_eq_none] at hop
      exact .read .done ⟨.inl ⟨rfl, rfl⟩, hop⟩
  | case3 lhs t rest hop => exact .read .done ⟨.inl ⟨rfl, rfl⟩, hop⟩
  | case4 lhs t op hop rhs hrhs =>
      have hterm := term?_eq_some_iff.mp hrhs
      refine .token (operator?_eq_some_iff.mp hop ▸ hsign op) ?_
      refine .token (next_of_isTerm hterm) ?_
      exact .read .done ⟨.inr rfl, operator?_of_isTerm hterm⟩
  | case5 lhs t op hop hnone =>
      refine .token (operator?_eq_some_iff.mp hop ▸ hsign op) ?_
      exact .complain (show State.Refuses _ last.kind from term_refuses hnone) _
  | case6 lhs t op hop u rest rhs hrhs ih =>
      refine .token (operator?_eq_some_iff.mp hop ▸ hsign op) ?_
      refine .token (next_of_isTerm (term?_eq_some_iff.mp hrhs)) ?_
      refine (ih next_operator).imp ?_
      rintro _ s' rest ⟨h | h, hend⟩
      · exact ⟨.inr h.1, hend⟩
      · exact ⟨.inr h, hend⟩
  | case7 lhs t op hop u rest hnone =>
      refine .token (operator?_eq_some_iff.mp hop ▸ hsign op) ?_
      exact .complain (show State.Refuses _ u.kind from term_refuses hnone) _

/-- A chain and the semicolon behind it end a statement. -/
theorem chainSemi_tracks (hsign : ∀ op : BinOp, s.next op.kind = some ⟨depth, .term⟩)
    (hsemi : s.next .semi = some ⟨depth, .statement⟩)
    (hother : operator? (kindAt last ts) = none → kindAt last ts ≠ .semi →
      s.Refuses (kindAt last ts)) (lhs : Expr) :
    Tracks last s ts (fun _ s' _ => s' = ⟨depth, .statement⟩)
      (chain last lhs ts >>= fun p => expect last .semi p.2 >>= fun rest => pure (p.1, rest)) := by
  apply (chain_tracks hsign lhs ts).bind
  rintro e s' rest ⟨⟨rfl, rfl⟩ | rfl, hend⟩
  · exact .expect hsemi (hother hend) (.read .done rfl)
  · exact .expect rfl (operator_refuses hend) (.read .done rfl)

/-- An expression starts where a term may stand, and ends a statement. -/
theorem exprSemi_tracks
    (hterm : (term? (ts.headD last)).isSome → s.next (kindAt last ts) = some ⟨depth, .operator⟩)
    (hother : term? (ts.headD last) = none → s.Refuses (kindAt last ts)) :
    Tracks last s ts (fun _ s' _ => s' = ⟨depth, .statement⟩) (exprSemi last ts) := by
  rw [exprSemi, expr]
  split
  · rename_i e he
    refine .token (hterm (by rw [he]; rfl)) ?_
    exact chainSemi_tracks next_operator rfl operator_refuses e
  · rename_i hnone
    exact .stuck .done (hother hnone)

theorem exprSemi_tracks_term (ts : List Token) :
    Tracks last ⟨depth, .term⟩ ts (fun _ s' _ => s' = ⟨depth, .statement⟩)
      (exprSemi last ts) := by
  refine exprSemi_tracks (fun hsome => ?_) term_refuses
  obtain ⟨e, he⟩ := Option.isSome_iff_exists.mp hsome
  exact next_of_isTerm (term?_eq_some_iff.mp he)

/-- Whatever is made of it, an expression where a term is due ends the statement. -/
theorem exprSemi_bind_tracks (ts : List Token) {α : Type} (f : Expr × List Token → α) :
    Tracks last ⟨depth, .term⟩ ts (fun _ s' _ => s' = ⟨depth, .statement⟩)
      (exprSemi last ts >>= fun p => pure (f p, p.2)) := by
  apply (exprSemi_tracks_term ts).bind
  exact fun h => .read .done h

end Expressions

/-! ## Declarations -/

/-- The states on the way through a declaration. -/
structure Declares (s const : State) (type name : TypeName → State) : Prop where
  const_next : s.next .kwConst = some const
  type_next : ∀ t : TypeName, s.next t.kind = some (type t)
  const_type : ∀ t : TypeName, const.next t.kind = some (type t)
  name_next : ∀ t : TypeName, (type t).next .ident = some (name t)
  const_refuses : ∀ kind : Kind, type? kind = none → const.Refuses kind
  type_refuses : ∀ (t : TypeName) (kind : Kind), kind ≠ .ident → (type t).Refuses kind

theorem Declares.decl_tracks {s const : State} {type name : TypeName → State}
    (h : Declares s const type name)
    (hfirst : kindAt last ts ∉ [.kwConst, .kwInt, .kwVoid] → s.Refuses (kindAt last ts)) :
    Tracks last s ts (fun d s' _ => s' = name d.type) (decl last ts) := by
  rw [decl]
  dsimp only
  generalize hus : (if (kindAt last ts == .kwConst) = true then ts.tail else ts) = us
  -- behind the `const`, if there is one, a type and a name are due
  obtain ⟨s₀, hsteps, htype, hother⟩ : ∃ s₀, Steps last s ts s₀ us ∧
      (∀ t : TypeName, s₀.next t.kind = some (type t)) ∧
      (type? (kindAt last us) = none → s₀.Refuses (kindAt last us)) := by
    cases hconst : kindAt last ts == .kwConst with
    | true =>
        rw [hconst, if_pos rfl] at hus
        rw [beq_iff_eq] at hconst
        subst hus
        exact ⟨const, .token (hconst ▸ h.const_next) .done, h.const_type, h.const_refuses _⟩
    | false =>
        rw [hconst, if_neg Bool.false_ne_true] at hus
        subst hus
        refine ⟨s, .done, h.type_next, fun hnone => hfirst fun hmem => ?_⟩
        rw [beq_eq_false_iff_ne] at hconst
        simp only [List.mem_cons, hconst, false_or, List.not_mem_nil, or_false] at hmem
        rcases hmem with hkind | hkind <;> rw [hkind] at hnone <;> cases hnone
  apply Tracks.after hsteps
  split
  · rename_i hnone
    exact .complain (hother hnone) _
  · rename_i t ht
    refine .token (type?_eq_some_iff.mp ht ▸ htype t) ?_
    split
    · rename_i hname
      have hnext : (type t).next (kindAt last us.tail) = some (name t) := by
        rw [kindAt, hname]
        exact h.name_next t
      exact .token hnext (.read .done rfl)
    · rename_i hname
      exact .complain (h.type_refuses t _ hname) _

/-- The declaration that starts a statement. -/
theorem statement_declares (depth : Nat) :
    Declares ⟨depth, .statement⟩ ⟨depth, .const⟩ (fun t => ⟨depth, .type t⟩)
      fun t => ⟨depth, .declared t⟩ where
  const_next := rfl
  type_next t := by cases t <;> rfl
  const_type t := by cases t <;> rfl
  name_next _ := rfl
  const_refuses kind hkind := by
    apply refuses_of_stage (show Stage.const ≠ .statement by decide)
    cases kind with
    | kwInt | kwVoid => cases hkind
    | _ => rfl
  type_refuses t kind hkind := by
    apply refuses_of_stage (show Stage.type t ≠ .statement by simp)
    cases kind with
    | ident => exact absurd rfl hkind
    | _ => rfl

/-- The declaration of a parameter. -/
theorem param_declares (depth : Nat) {stage : Stage} (hstage : stage ∈ [.params, .param]) :
    Declares ⟨depth, stage⟩ ⟨depth, .paramConst⟩ (fun t => ⟨depth, .paramType t⟩)
      fun t => ⟨depth, .paramName t⟩ := by
  have hnext : (⟨depth, stage⟩ : State).next .kwConst = some ⟨depth, .paramConst⟩ ∧
      ∀ t : TypeName, (⟨depth, stage⟩ : State).next t.kind = some ⟨depth, .paramType t⟩ := by
    rcases List.mem_pair.mp hstage with rfl | rfl
    · exact ⟨rfl, fun t => by cases t <;> rfl⟩
    · exact ⟨rfl, fun t => by cases t <;> rfl⟩
  refine ⟨hnext.1, hnext.2, fun t => by cases t <;> rfl, fun _ => rfl, ?_, ?_⟩
  · intro kind hkind
    apply refuses_of_stage (show Stage.paramConst ≠ .statement by decide)
    cases kind with
    | kwInt | kwVoid => cases hkind
    | _ => rfl
  · intro t kind hkind
    apply refuses_of_stage (show Stage.paramType t ≠ .statement by simp)
    cases kind with
    | ident => exact absurd rfl hkind
    | _ => rfl

theorem statement_decl_tracks {depth : Nat} (h : kindAt last ts ∈ [.kwConst, .kwInt, .kwVoid]) :
    Tracks last ⟨depth, .statement⟩ ts (fun d s' _ => s' = ⟨depth, .declared d.type⟩)
      (decl last ts) :=
  (statement_declares depth).decl_tracks fun hother => absurd h hother

/-- What is no declaration is refused where a parameter starts; where parameters start
they may also end. -/
theorem param_decl_tracks {depth : Nat} {stage : Stage} (hstage : stage ∈ [.params, .param])
    (hright : stage = .params → kindAt last ts ≠ .rightParen) :
    Tracks last ⟨depth, stage⟩ ts (fun d s' _ => s' = ⟨depth, .paramName d.type⟩)
      (decl last ts) := by
  refine (param_declares depth hstage).decl_tracks fun hother => ?_
  rcases List.mem_pair.mp hstage with rfl | rfl
  · apply refuses_of_stage (show Stage.params ≠ .statement by decide)
    have hright := hright rfl
    revert hother hright
    cases kindAt last ts with
    | rightParen => exact fun _ hright => absurd rfl hright
    | kwConst | kwInt | kwVoid => exact fun hother => absurd (by decide) hother
    | _ => exact fun _ _ => rfl
  · apply refuses_of_stage (show Stage.param ≠ .statement by decide)
    revert hother
    cases kindAt last ts with
    | kwConst | kwInt | kwVoid => exact fun hother => absurd (by decide) hother
    | _ => exact fun _ => rfl

/-- A comma leads to another parameter, and a `void` parameter nowhere. -/
theorem paramsFrom_tracks {depth : Nat} {stage : Stage} (hstage : stage ∈ [.params, .param])
    (hright : stage = .params → kindAt last ts ≠ .rightParen) (done : List Decl) (limit : Nat) :
    Tracks last ⟨depth, stage⟩ ts
      (fun _ s' rest => s' = ⟨depth, .paramName .int⟩ ∧ kindAt last rest ≠ .comma)
      (paramsFrom last done limit ts) := by
  induction limit generalizing stage done ts with
  | zero => exact .endless
  | succ limit ih =>
      apply (param_decl_tracks hstage hright).bind
      rintro ⟨isConst, type, name⟩ s' rest rfl
      dsimp only
      cases type with
      | void =>
          have hstage : Stage.paramName .void ≠ .statement := by decide
          refine .complain (refuses_of_stage hstage ?_) _
          cases kindAt last rest <;> rfl
      | int =>
          rw [if_neg (by decide)]
          split
          · rename_i hcomma
            have hnext : (⟨depth, .paramName .int⟩ : State).next (kindAt last rest) =
                some ⟨depth, .param⟩ := by
              rw [hcomma]
              rfl
            exact .token hnext (ih (show Stage.param ∈ [.params, .param] by decide) nofun _)
          · rename_i hcomma
            exact .read .done ⟨rfl, hcomma⟩

/-! ## Statements -/

theorem params_tracks {depth : Nat} (limit : Nat) (ts : List Token) :
    Tracks last ⟨depth, .params⟩ ts
      (fun _ s' rest => s' = ⟨depth, .params⟩ ∧ kindAt last rest = .rightParen ∨
        s' = ⟨depth, .paramName .int⟩ ∧ kindAt last rest ≠ .comma) (params last limit ts) := by
  rw [params]
  split
  · rename_i hright
    exact .read .done (.inl ⟨rfl, hright⟩)
  · rename_i hright
    have hfirst : Stage.params ∈ [Stage.params, .param] := by decide
    exact (paramsFrom_tracks hfirst (fun _ => hright) [] limit).imp fun _ _ _ h => .inr h

theorem variableEnd_tracks {depth : Nat} (d : Decl) (line : Int)
    (hleft : kindAt last ts ≠ .leftParen) :
    Tracks last ⟨depth, .declared d.type⟩ ts (fun _ s' _ => s' = ⟨depth, .statement⟩)
      (variableEnd last d line ts) := by
  obtain ⟨isConst, type, name⟩ := d
  have hstage : Stage.declared type ≠ .statement := by simp
  rw [variableEnd]
  cases type with
  | void =>
      refine .complain (refuses_of_stage hstage ?_) _
      revert hleft
      cases kindAt last ts with
      | leftParen => exact fun hleft => absurd rfl hleft
      | _ => exact fun _ => rfl
  | int =>
      rw [if_neg (show TypeName.int ≠ .void by decide)]
      split
      · rename_i hsemi
        exact .token (by rw [hsemi]; rfl) (.read .done rfl)
      · rename_i hequals
        exact .token (by rw [hequals]; rfl) (exprSemi_bind_tracks _ _)
      · rename_i hsemi hequals
        refine .complain (refuses_of_stage hstage ?_) _
        revert hsemi hequals hleft
        cases kindAt last ts with
        | semi => exact fun _ hsemi => absurd rfl hsemi
        | assign => exact fun _ _ hequals => absurd rfl hequals
        | leftParen => exact fun hleft => absurd rfl hleft
        | _ => exact fun _ _ _ => rfl

theorem named_tracks {depth : Nat} (hname : kindAt last ts = .ident) :
    Tracks last ⟨depth, .statement⟩ ts (fun _ s' _ => s' = ⟨depth, .statement⟩)
      (named last ts) := by
  have hnext : (⟨depth, .statement⟩ : State).next (kindAt last ts) = some ⟨depth, .name⟩ := by
    rw [hname]
    rfl
  have hterm : term? (ts.headD last) = some (.ident (ts.headD last).value) :=
    term?_eq_some_iff.mpr (.ident hname)
  refine .token hnext ?_
  rw [named]
  dsimp only
  -- behind a sign that assigns there is an expression
  have hassign (f : Expr × List Token → Stmt)
      (hsign : (⟨depth, .name⟩ : State).next (kindAt last ts.tail) = some ⟨depth, .term⟩) :
      Tracks last ⟨depth, .name⟩ ts.tail (fun _ s' _ => s' = ⟨depth, .statement⟩)
        (exprSemi last ts.tail.tail >>= fun p => pure (f p, p.2)) :=
    .token hsign (exprSemi_bind_tracks _ f)
  split
  · rename_i hsign
    exact hassign _ (by rw [hsign]; rfl)
  · rename_i hsign
    exact hassign _ (by rw [hsign]; rfl)
  · rename_i hsign
    exact hassign _ (by rw [hsign]; rfl)
  · rename_i hequals hplus hminus
    have hsign : ∀ op : BinOp, (⟨depth, .name⟩ : State).next op.kind = some ⟨depth, .term⟩ :=
      fun op => by cases op <;> rfl
    have hother : operator? (kindAt last ts.tail) = none → kindAt last ts.tail ≠ .semi →
        (⟨depth, .name⟩ : State).Refuses (kindAt last ts.tail) := by
      intro hend hsemi
      apply refuses_of_stage (show Stage.name ≠ .statement by decide)
      revert hend hsemi hequals hplus hminus
      cases kindAt last ts.tail with
      | plus | minus => exact fun _ _ _ hend => absurd hend (by decide)
      | semi => exact fun _ _ _ _ hsemi => absurd rfl hsemi
      | assign => exact fun hequals => absurd rfl hequals
      | plusAssign => exact fun _ hplus => absurd rfl hplus
      | minusAssign => exact fun _ _ hminus => absurd rfl hminus
      | _ => exact fun _ _ _ _ _ => rfl
    rw [exprSemi, expr, hterm]
    apply (chainSemi_tracks hsign rfl hother _).bind
    exact fun h => .read .done h

/-- What starts no other statement is the literal that starts an expression, or refused. -/
theorem exprSemi_tracks_statement {depth : Nat}
    (hkind : kindAt last ts ∉ [.semi, .leftBrace, .ident])
    (hdeclared : kindAt last ts ∉ [.kwConst, .kwInt, .kwVoid])
    (hstop : kindAt last ts ∉ [.rightBrace, .endOfInput]) :
    Tracks last ⟨depth, .statement⟩ ts (fun _ s' _ => s' = ⟨depth, .statement⟩)
      (exprSemi last ts) := by
  have hcases : kindAt last ts = .intLiteral ∨ term? (ts.headD last) = none ∧
      (⟨depth, .statement⟩ : State).next (kindAt last ts) = none := by
    rw [term?, ← kindAt]
    revert hkind hdeclared hstop
    cases kindAt last ts with
    | intLiteral => exact fun _ _ _ => .inl rfl
    | semi | leftBrace | ident => exact fun hkind => absurd (by decide) hkind
    | kwConst | kwInt | kwVoid => exact fun _ hdeclared => absurd (by decide) hdeclared
    | rightBrace | endOfInput => exact fun _ _ hstop => absurd (by decide) hstop
    | _ => exact fun _ _ _ => .inr ⟨rfl, rfl⟩
  rcases hcases with hliteral | ⟨hnone, hnext⟩
  · have hterm := term?_eq_some_iff.mpr (.literal hliteral)
    refine exprSemi_tracks (fun _ => ?_) fun hnone => ?_
    · rw [hliteral]
      rfl
    · rw [hterm] at hnone
      cases hnone
  · refine exprSemi_tracks (fun hsome => ?_) fun _ => ⟨hnext, fun _ hend => ?_⟩
    · rw [hnone] at hsome
      cases hsome
    · rw [hend] at hstop
      exact hstop (by decide)

/-- Whatever is read within a limit goes from state to state. -/
structure Tracked (last : Token) (limit : Nat) : Prop where
  stmts : ∀ (depth : Nat) (done : List Stmt) (ts : List Token),
    Tracks last ⟨depth, .statement⟩ ts
      (fun _ s' rest => s' = ⟨depth, .statement⟩ ∧
        kindAt last rest ∈ [.rightBrace, .endOfInput]) (stmtsFrom last done limit ts)
  stmt : ∀ (depth : Nat) {ts : List Token}, kindAt last ts ∉ [.rightBrace, .endOfInput] →
    Tracks last ⟨depth, .statement⟩ ts (fun _ s' _ => s' = ⟨depth, .statement⟩)
      (stmt last limit ts)

theorem Tracked.zero : Tracked last 0 where
  stmts _ _ _ := .endless
  stmt _ _ _ := .endless

/-- Statements behind an opening brace, and the brace that closes them. -/
theorem Tracked.braced {limit : Nat} (h : Tracked last limit) (depth : Nat) (ts : List Token)
    {α : Type} (f : List Stmt × List Token → List Token → α) :
    Tracks last ⟨depth + 1, .statement⟩ ts (fun _ s' _ => s' = ⟨depth, .statement⟩)
      (stmtsFrom last [] limit ts >>= fun p =>
        expect last .rightBrace p.2 >>= fun rest => pure (f p rest, rest)) := by
  apply (h.stmts (depth + 1) [] ts).bind
  rintro body s' rest ⟨rfl, hstop⟩
  refine .expect rfl (fun hkind => ?_) (.read .done rfl)
  rcases List.mem_pair.mp hstop with hstop | hstop
  · exact absurd hstop hkind
  · rw [hstop]
    exact ⟨rfl, nofun⟩

theorem Tracked.functionEnd {limit : Nat} (h : Tracked last limit) (depth : Nat) (d : Decl)
    (line : Int) (ts : List Token) :
    Tracks last ⟨depth, .params⟩ ts (fun _ s' _ => s' = ⟨depth, .statement⟩)
      (functionEnd last limit d line ts) := by
  -- behind the parameters
  have hbody (ds : List Decl) (ts : List Token) :
      Tracks last ⟨depth, .body⟩ ts (fun _ s' _ => s' = ⟨depth, .statement⟩)
        (expect last .leftBrace ts >>= fun ts => stmtsFrom last [] limit ts >>= fun p =>
          expect last .rightBrace p.2 >>= fun rest =>
            pure (Stmt.function d ds p.1 (ts.headD last).line line, rest)) := by
    refine .expect rfl (fun hkind => ?_) (h.braced depth ts.tail _)
    apply refuses_of_stage (show Stage.body ≠ .statement by decide)
    revert hkind
    cases kindAt last ts with
    | leftBrace => exact fun hkind => absurd rfl hkind
    | _ => exact fun _ => rfl
  apply (params_tracks limit ts).bind
  rintro ds s' rest (⟨rfl, hright⟩ | ⟨rfl, hcomma⟩)
  · exact .expect rfl (fun hkind => absurd hright hkind) (hbody ds rest.tail)
  · refine .expect rfl (fun hkind => ?_) (hbody ds rest.tail)
    apply refuses_of_stage (show Stage.paramName .int ≠ .statement by decide)
    revert hcomma hkind
    cases kindAt last rest with
    | comma => exact fun hcomma => absurd rfl hcomma
    | rightParen => exact fun _ hkind => absurd rfl hkind
    | _ => exact fun _ _ => rfl

theorem Tracked.declared {limit : Nat} (h : Tracked last limit) (depth : Nat) {ts : List Token}
    (hts : kindAt last ts ∈ [.kwConst, .kwInt, .kwVoid]) :
    Tracks last ⟨depth, .statement⟩ ts (fun _ s' _ => s' = ⟨depth, .statement⟩)
      (declared last limit ts) := by
  apply (statement_decl_tracks hts).bind
  rintro d s' rest rfl
  dsimp only
  split
  · rename_i hleft
    refine .token ?_ (h.functionEnd depth d _ rest.tail)
    rw [hleft]
    cases d.type <;> rfl
  · rename_i hleft
    exact variableEnd_tracks d _ hleft

theorem Tracked.succ {limit : Nat} (h : Tracked last limit) : Tracked last (limit + 1) where
  stmts := by
    intro depth done ts
    rw [stmtsFrom]
    split
    case h_1 hstop | h_2 hstop => exact .read .done ⟨rfl, by rw [hstop]; decide⟩
    case h_3 hbrace hend =>
      apply (h.stmt depth fun hstop => (List.mem_pair.mp hstop).elim hbrace hend).bind
      rintro s s' rest rfl
      exact h.stmts depth _ rest
  stmt := by
    intro depth ts hts
    by_cases hdeclared : kindAt last ts ∈ [.kwConst, .kwInt, .kwVoid]
    · rw [stmt_of_kindAt hdeclared]
      exact h.declared depth hdeclared
    · rw [Parser.stmt]
      dsimp only
      split
      case h_2 hkind | h_3 hkind | h_4 hkind =>
        exact absurd (by rw [kindAt, hkind]; decide) hdeclared
      case h_1 hkind => exact .token (by rw [kindAt, hkind]; rfl) (.read .done rfl)
      case h_5 hkind =>
        exact .token (by rw [kindAt, hkind]; rfl) (h.braced depth ts.tail _)
      case h_6 hkind => exact named_tracks hkind
      case h_7 hsemi hconst hint hvoid hbrace hname =>
        have hkind : kindAt last ts ∉ [.semi, .leftBrace, .ident] := by
          simp only [List.mem_cons, List.not_mem_nil, or_false]
          rintro (hkind | hkind | hkind)
          · exact hsemi hkind
          · exact hbrace hkind
          · exact hname hkind
        exact (exprSemi_tracks_statement hkind hdeclared hts).bind fun h => .read .done h

theorem tracked (last : Token) (limit : Nat) : Tracked last limit := by
  induction limit with
  | zero => exact .zero
  | succ limit ih => exact ih.succ

end Parser

end IttyBitty.Ibcmc
