import IttyBitty.Proofs.Ibcmc.Programs
import Mathlib.Data.List.Forall2

/-!
# The parser does not look at places

Two lists of tokens of the same kinds and values, one for one, take the parser the
same way: it ends with trees that differ in their lines only, as the tokens do, or
with the same complaint about tokens that correspond (`Parser.program_alike`). Which
tokens correspond, and how their lines do, is left open.
-/

namespace IttyBitty.Ibcmc

/-! ## Lines of trees -/

mutual

/-- A statement with other lines. -/
def Stmt.mapLines (f : Int → Int) : Stmt → Stmt
  | .block body line => .block (mapLinesAll f body) (f line)
  | .assign name value line => .assign name value (f line)
  | .compound name op value line => .compound name op value (f line)
  | .decl d line => .decl d (f line)
  | .init d value line => .init d value (f line)
  | .function d params body bodyLine line =>
    .function d params (mapLinesAll f body) (f bodyLine) (f line)
  | .expr value line => .expr value (f line)
  | .empty line => .empty (f line)

/-- Statements with other lines. -/
def mapLinesAll (f : Int → Int) : List Stmt → List Stmt
  | [] => []
  | s :: body => s.mapLines f :: mapLinesAll f body

end

/-- A program with other lines. -/
def Block.mapLines (f : Int → Int) (b : Block) : Block := ⟨mapLinesAll f b.body, f b.line⟩

theorem mapLinesAll_append (f : Int → Int) (body more : List Stmt) :
    mapLinesAll f (body ++ more) = mapLinesAll f body ++ mapLinesAll f more := by
  induction body with
  | nil => rfl
  | cons s body ih => rw [List.cons_append, mapLinesAll, ih, mapLinesAll, List.cons_append]

theorem mapLinesAll_reverse (f : Int → Int) (body : List Stmt) :
    mapLinesAll f body.reverse = (mapLinesAll f body).reverse := by
  induction body with
  | nil => rfl
  | cons s body ih =>
      rw [List.reverse_cons, mapLinesAll_append, ih]
      simp only [mapLinesAll, List.reverse_cons]

mutual

theorem Stmt.mapLines_id : ∀ s : Stmt, s.mapLines id = s
  | .block body line => by rw [Stmt.mapLines, mapLinesAll_id body, id]
  | .function d params body bodyLine line => by
      rw [Stmt.mapLines, mapLinesAll_id body, id, id]
  | .assign .. | .compound .. | .decl .. | .init .. | .expr .. | .empty _ => rfl

/-- The same lines are no change. -/
theorem mapLinesAll_id : ∀ body : List Stmt, mapLinesAll id body = body
  | [] => rfl
  | s :: body => by rw [mapLinesAll, Stmt.mapLines_id s, mapLinesAll_id body]

end

theorem Block.mapLines_id (b : Block) : b.mapLines id = b := by
  rw [Block.mapLines, mapLinesAll_id]
  rfl

namespace Parser

/-! ## Tokens that correspond -/

/-- Tokens that correspond have the same kind and value, and lines that the two
functions take to the same. -/
def Places (f f' : Int → Int) (R : Token → Token → Prop) : Prop :=
  ∀ ⦃t t' : Token⦄, R t t' → t.kind = t'.kind ∧ t.value = t'.value ∧ f t.line = f' t'.line

/-- Two results that cannot be told apart but by their places: values that correspond,
or the same complaint about tokens that do. -/
inductive Alike (R : Token → Token → Prop) {α : Type} (S : α → α → Prop) :
    Except ParseError α → Except ParseError α → Prop
  | read {a a' : α} (h : S a a') : Alike R S (.ok a) (.ok a')
  | complaint {c : Complaint} {t t' : Token} (h : R t t') :
      Alike R S (.error (.complaint c t)) (.error (.complaint c t'))
  | endless : Alike R S (.error .endless) (.error .endless)

/-- The same value in front of tokens that correspond. -/
def Rests (R : Token → Token → Prop) {α : Type} (S : α → α → Prop) (p p' : α × List Token) :
    Prop := S p.1 p'.1 ∧ List.Forall₂ R p.2 p'.2

variable {f f' : Int → Int} {R : Token → Token → Prop} {last last' : Token}
  {ts ts' : List Token}

theorem Alike.bind {α β : Type} {S : α → α → Prop} {S' : β → β → Prop}
    {r r' : Except ParseError α} {g g' : α → Except ParseError β} (h : Alike R S r r')
    (hg : ∀ {a a'}, S a a' → Alike R S' (g a) (g' a')) : Alike R S' (r >>= g) (r' >>= g') := by
  cases h with
  | read h => exact hg h
  | complaint h => exact .complaint h
  | endless => exact .endless

/-! ## The current token -/

theorem headD_related (hlast : R last last') (h : List.Forall₂ R ts ts') :
    R (ts.headD last) (ts'.headD last') := by
  cases h with
  | nil => exact hlast
  | cons h _ => exact h

theorem tail_related (h : List.Forall₂ R ts ts') : List.Forall₂ R ts.tail ts'.tail := by
  cases h with
  | nil => exact .nil
  | cons _ h => exact h

theorem kindAt_related (hR : Places f f' R) (hlast : R last last')
    (h : List.Forall₂ R ts ts') : kindAt last ts = kindAt last' ts' :=
  (hR (headD_related hlast h)).1

theorem complain_alike (hlast : R last last') (h : List.Forall₂ R ts ts') (c : Complaint)
    {α : Type} {S : α → α → Prop} : Alike R S (complain last ts c) (complain last' ts' c) :=
  .complaint (headD_related hlast h)

theorem expect_alike (hR : Places f f' R) (hlast : R last last') (kind : Kind)
    (h : List.Forall₂ R ts ts') :
    Alike R (List.Forall₂ R) (expect last kind ts) (expect last' kind ts') := by
  rw [expect, expect, kindAt_related hR hlast h]
  split
  · exact .read (tail_related h)
  · exact complain_alike hlast h _

/-! ## Expressions -/

theorem term?_related (hR : Places f f' R) {t t' : Token} (h : R t t') : term? t = term? t' := by
  obtain ⟨hkind, hvalue, -⟩ := hR h
  rw [term?, term?, hkind, hvalue]

theorem chain_alike (hR : Places f f' R) (hlast : R last last') (lhs : Expr)
    (h : List.Forall₂ R ts ts') :
    Alike R (Rests R Eq) (chain last lhs ts) (chain last' lhs ts') := by
  fun_induction chain last lhs ts generalizing ts' with
  | case1 lhs hop =>
      cases h
      rw [(hR hlast).1] at hop
      rw [chain, if_pos hop]
      exact .complaint hlast
  | case2 lhs hop =>
      cases h
      rw [(hR hlast).1] at hop
      rw [chain, if_neg hop]
      exact .read ⟨rfl, .nil⟩
  | case3 lhs t rest hop =>
      obtain _ | ⟨ht, hrest⟩ := h
      have hop' := (hR ht).1 ▸ hop
      rw [chain, hop']
      exact .read ⟨rfl, .cons ht hrest⟩
  | case4 lhs t op hop rhs hterm =>
      obtain _ | ⟨ht, ⟨⟩⟩ := h
      have hop' := (hR ht).1 ▸ hop
      have hterm' := term?_related hR hlast ▸ hterm
      rw [chain, hop']
      simp only [hterm']
      exact .read ⟨rfl, .nil⟩
  | case5 lhs t op hop hterm =>
      obtain _ | ⟨ht, ⟨⟩⟩ := h
      have hop' := (hR ht).1 ▸ hop
      have hterm' := term?_related hR hlast ▸ hterm
      rw [chain, hop']
      simp only [hterm']
      exact .complaint hlast
  | case6 lhs t op hop u rest rhs hterm ih =>
      obtain _ | ⟨ht, _ | ⟨hu, hrest⟩⟩ := h
      have hop' := (hR ht).1 ▸ hop
      have hterm' := term?_related hR hu ▸ hterm
      rw [chain, hop']
      simp only [hterm']
      exact ih hrest
  | case7 lhs t op hop u rest hterm =>
      obtain _ | ⟨ht, _ | ⟨hu, hrest⟩⟩ := h
      have hop' := (hR ht).1 ▸ hop
      have hterm' := term?_related hR hu ▸ hterm
      rw [chain, hop']
      simp only [hterm']
      exact .complaint hu

theorem exprSemi_alike (hR : Places f f' R) (hlast : R last last')
    (h : List.Forall₂ R ts ts') :
    Alike R (Rests R Eq) (exprSemi last ts) (exprSemi last' ts') := by
  have hexpr : Alike R (Rests R Eq) (expr last ts) (expr last' ts') := by
    rw [expr, expr, term?_related hR (headD_related hlast h)]
    split
    · exact chain_alike hR hlast _ (tail_related h)
    · exact complain_alike hlast h _
  apply hexpr.bind
  rintro ⟨e, rest⟩ ⟨e', rest'⟩ ⟨rfl, hrest⟩
  apply (expect_alike hR hlast .semi hrest).bind
  exact fun hrest => .read ⟨rfl, hrest⟩

/-! ## Declarations -/

theorem decl_alike (hR : Places f f' R) (hlast : R last last') (h : List.Forall₂ R ts ts') :
    Alike R (Rests R Eq) (decl last ts) (decl last' ts') := by
  rw [decl, decl, kindAt_related hR hlast h]
  dsimp only
  have hrest : List.Forall₂ R (if kindAt last' ts' == .kwConst then ts.tail else ts)
      (if kindAt last' ts' == .kwConst then ts'.tail else ts') := by
    split
    · exact tail_related h
    · exact h
  generalize (if kindAt last' ts' == .kwConst then ts.tail else ts) = us at hrest
  generalize (if kindAt last' ts' == .kwConst then ts'.tail else ts') = us' at hrest
  obtain ⟨hkind, hvalue, -⟩ := hR (headD_related hlast (tail_related hrest))
  rw [kindAt_related hR hlast hrest, hkind, hvalue]
  split
  · exact complain_alike hlast hrest _
  · split
    · exact .read ⟨rfl, tail_related (tail_related hrest)⟩
    · exact complain_alike hlast (tail_related hrest) _

theorem paramsFrom_alike (hR : Places f f' R) (hlast : R last last') (done : List Decl)
    (limit : Nat) (h : List.Forall₂ R ts ts') :
    Alike R (Rests R Eq) (paramsFrom last done limit ts) (paramsFrom last' done limit ts') := by
  induction limit generalizing done ts ts' with
  | zero => exact .endless
  | succ limit ih =>
      apply (decl_alike hR hlast h).bind
      rintro ⟨param, rest⟩ ⟨param', rest'⟩ ⟨rfl, hrest⟩
      dsimp only
      rw [kindAt_related hR hlast hrest]
      split
      · exact complain_alike hlast hrest _
      · split
        · exact ih _ (tail_related hrest)
        · exact .read ⟨rfl, hrest⟩

theorem params_alike (hR : Places f f' R) (hlast : R last last') (limit : Nat)
    (h : List.Forall₂ R ts ts') :
    Alike R (Rests R Eq) (params last limit ts) (params last' limit ts') := by
  rw [params, params, kindAt_related hR hlast h]
  split
  · exact .read ⟨rfl, h⟩
  · exact paramsFrom_alike hR hlast [] limit h

/-! ## Statements -/

/-- Statements that differ in their lines only. -/
def SameStmt (f f' : Int → Int) (s s' : Stmt) : Prop := s.mapLines f = s'.mapLines f'

/-- Lists of statements that differ in their lines only. -/
def SameStmts (f f' : Int → Int) (body body' : List Stmt) : Prop :=
  mapLinesAll f body = mapLinesAll f' body'

theorem sameStmts_nil : SameStmts f f' [] [] := rfl

/-- What is made of an expression and a line. -/
theorem exprSemi_bind_alike (hR : Places f f' R) (hlast : R last last')
    (h : List.Forall₂ R ts ts') (make : Expr → Int → Stmt)
    (hmake : ∀ e line g, (make e line).mapLines g = make e (g line)) {line line' : Int}
    (hline : f line = f' line') :
    Alike R (Rests R (SameStmt f f')) (exprSemi last ts >>= fun p => pure (make p.1 line, p.2))
      (exprSemi last' ts' >>= fun p => pure (make p.1 line', p.2)) := by
  apply (exprSemi_alike hR hlast h).bind
  rintro ⟨e, rest⟩ ⟨e', rest'⟩ ⟨rfl, hrest⟩
  refine .read ⟨?_, hrest⟩
  rw [SameStmt, hmake, hmake, hline]

theorem variableEnd_alike (hR : Places f f' R) (hlast : R last last') (d : Decl)
    {line line' : Int} (hline : f line = f' line') (h : List.Forall₂ R ts ts') :
    Alike R (Rests R (SameStmt f f')) (variableEnd last d line ts)
      (variableEnd last' d line' ts') := by
  rw [variableEnd, variableEnd, kindAt_related hR hlast h]
  split
  · exact complain_alike hlast h _
  · split
    · exact .read ⟨congrArg (Stmt.decl d) hline, tail_related h⟩
    · exact exprSemi_bind_alike hR hlast (tail_related h) (.init d) (fun _ _ _ => rfl) hline
    · exact complain_alike hlast h _

theorem named_alike (hR : Places f f' R) (hlast : R last last') (h : List.Forall₂ R ts ts') :
    Alike R (Rests R (SameStmt f f')) (named last ts) (named last' ts') := by
  obtain ⟨-, hvalue, hline⟩ := hR (headD_related hlast h)
  have hbehind := tail_related (tail_related h)
  rw [named, named, kindAt_related hR hlast (tail_related h), hvalue]
  dsimp only
  split
  · exact exprSemi_bind_alike hR hlast hbehind (.assign _) (fun _ _ _ => rfl) hline
  · exact exprSemi_bind_alike hR hlast hbehind (.compound _ .add) (fun _ _ _ => rfl) hline
  · exact exprSemi_bind_alike hR hlast hbehind (.compound _ .sub) (fun _ _ _ => rfl) hline
  · exact exprSemi_bind_alike hR hlast h .expr (fun _ _ _ => rfl) hline

/-- Whatever is read within a limit is read alike. -/
structure AllAlike (f f' : Int → Int) (R : Token → Token → Prop) (last last' : Token)
    (limit : Nat) : Prop where
  stmts : ∀ {done done' : List Stmt} {ts ts' : List Token}, SameStmts f f' done done' →
    List.Forall₂ R ts ts' → Alike R (Rests R (SameStmts f f')) (stmtsFrom last done limit ts)
      (stmtsFrom last' done' limit ts')
  stmt : ∀ {ts ts' : List Token}, List.Forall₂ R ts ts' →
    Alike R (Rests R (SameStmt f f')) (stmt last limit ts) (stmt last' limit ts')

theorem AllAlike.declared {limit : Nat} (h : AllAlike f f' R last last' limit)
    (hR : Places f f' R) (hlast : R last last') (hts : List.Forall₂ R ts ts') :
    Alike R (Rests R (SameStmt f f')) (declared last limit ts) (declared last' limit ts') := by
  obtain ⟨-, -, hline⟩ := hR (headD_related hlast hts)
  apply (decl_alike hR hlast hts).bind
  rintro ⟨d, rest⟩ ⟨d', rest'⟩ ⟨rfl, hrest⟩
  dsimp only
  rw [kindAt_related hR hlast hrest]
  split
  · apply (params_alike hR hlast limit (tail_related hrest)).bind
    rintro ⟨ds, ts₁⟩ ⟨ds', ts₁'⟩ ⟨rfl, hts₁⟩
    apply (expect_alike hR hlast .rightParen hts₁).bind
    intro ts₂ ts₂' hts₂
    apply (expect_alike hR hlast .leftBrace hts₂).bind
    intro ts₃ ts₃' hts₃
    obtain ⟨-, -, hbodyLine⟩ := hR (headD_related hlast hts₃)
    apply (h.stmts sameStmts_nil hts₃).bind
    rintro ⟨body, ts₄⟩ ⟨body', ts₄'⟩ ⟨hbody, hts₄⟩
    apply (expect_alike hR hlast .rightBrace hts₄).bind
    intro ts₅ ts₅' hts₅
    refine .read ⟨?_, hts₅⟩
    show Stmt.function d ds (mapLinesAll f body) (f _) (f _) = .function d ds _ (f' _) (f' _)
    rw [show mapLinesAll f body = mapLinesAll f' body' from hbody, hbodyLine, hline]
  · exact variableEnd_alike hR hlast d hline hrest

theorem AllAlike.succ {limit : Nat} (h : AllAlike f f' R last last' limit)
    (hR : Places f f' R) (hlast : R last last') : AllAlike f f' R last last' (limit + 1) where
  stmts := by
    intro done done' ts ts' hdone hts
    rw [stmtsFrom, stmtsFrom, kindAt_related hR hlast hts]
    split
    case h_1 | h_2 =>
      refine .read ⟨?_, hts⟩
      show mapLinesAll f done.reverse = mapLinesAll f' done'.reverse
      rw [mapLinesAll_reverse, mapLinesAll_reverse, show mapLinesAll f done = _ from hdone]
    case h_3 =>
      apply (h.stmt hts).bind
      rintro ⟨s, rest⟩ ⟨s', rest'⟩ ⟨hs, hrest⟩
      exact h.stmts (congrArg₂ List.cons hs hdone) hrest
  stmt := by
    intro ts ts' hts
    obtain ⟨hkind, -, hline⟩ := hR (headD_related hlast hts)
    by_cases hdeclared : kindAt last ts ∈ [.kwConst, .kwInt, .kwVoid]
    · rw [stmt_of_kindAt hdeclared, stmt_of_kindAt (kindAt_related hR hlast hts ▸ hdeclared)]
      exact h.declared hR hlast hts
    · rw [Parser.stmt, Parser.stmt, hkind]
      dsimp only
      split
      case h_2 hkind' | h_3 hkind' | h_4 hkind' =>
        exact absurd (by rw [kindAt, hkind, hkind']; decide) hdeclared
      case h_1 => exact .read ⟨congrArg Stmt.empty hline, tail_related hts⟩
      case h_5 =>
        apply (h.stmts sameStmts_nil (tail_related hts)).bind
        rintro ⟨body, rest⟩ ⟨body', rest'⟩ ⟨hbody, hrest⟩
        apply (expect_alike hR hlast .rightBrace hrest).bind
        exact fun hrest => .read ⟨congrArg₂ Stmt.block hbody hline, hrest⟩
      case h_6 => exact named_alike hR hlast hts
      case h_7 => exact exprSemi_bind_alike hR hlast hts .expr (fun _ _ _ => rfl) hline

theorem allAlike (hR : Places f f' R) (hlast : R last last') (limit : Nat) :
    AllAlike f f' R last last' limit := by
  induction limit with
  | zero => exact ⟨fun _ _ => .endless, fun _ => .endless⟩
  | succ limit ih => exact ih.succ hR hlast

/-- **The parser copies places** and does nothing else with them. -/
theorem program_alike (hR : Places f f' R) (hlast : R last last') (h : List.Forall₂ R ts ts') :
    Alike R (fun b b' => b.mapLines f = b'.mapLines f') (program last ts) (program last' ts') := by
  obtain ⟨-, -, hline⟩ := hR (headD_related hlast h)
  rw [program, program, h.length_eq]
  apply ((allAlike hR hlast _).stmts sameStmts_nil h).bind
  rintro ⟨body, rest⟩ ⟨body', rest'⟩ ⟨hbody, hrest⟩
  dsimp only
  rw [kindAt_related hR hlast hrest]
  split
  · exact .read (congrArg₂ Block.mk hbody hline)
  · exact complain_alike hlast hrest _

end Parser

/-- The tree of a text whose tokens are known. -/
theorem Scans.parse_eq {t : Text} {found : List Token} (h : Scans t t [] found) :
    parse t = (Parser.program (endToken t) found).mapError .grammatical := by
  rw [parse, h.tokenize_eq_ok]
  dsimp only
  rw [Parser.parseTokens_concat]

end IttyBitty.Ibcmc
