import IttyBitty.Ibcmc.Outline
import IttyBitty.Proofs.Ibcmc.Layout

/-!
# What a line of an outline says

A line of an outline is read from the left without a look at what follows: names and
numbers go as far as they can, parentheses say how operators nest, and the first word
says which form the statement has. So the line says all of the statement but what it
holds (`tells_labels`).
-/

namespace IttyBitty.Ibcmc

/-! ## Texts that tell -/

section Tells

variable {α β : Type} {P : α → Prop} {text : α → Text} {said : α → β}

/-- The texts of some things, in front of anything that goes on with no name, tell what
is said of the things and where they end themselves. -/
def Tells (P : α → Prop) (text : α → Text) (said : α → β) : Prop :=
  ∀ ⦃a a' : α⦄ ⦃rest rest' : Text⦄, P a → P a' → Stops isNameChar rest →
    Stops isNameChar rest' → text a ++ rest = text a' ++ rest' → said a = said a' ∧ rest = rest'

/-- What starts with another character goes on with no name. -/
theorem stops_cons {c : Char} (hc : isNameChar c = false) (rest : Text) :
    Stops isNameChar (c :: rest) := fun _ hd => Option.mem_some.mp hd ▸ hc

/-- Runs of a class of characters go as far as they can. -/
theorem run_append_inj {p : Char → Bool} {run run' rest rest' : Text} (hrun : ∀ c ∈ run, p c = true)
    (hrun' : ∀ c ∈ run', p c = true) (hend : Stops p rest) (hend' : Stops p rest')
    (h : run ++ rest = run' ++ rest') : run = run' ∧ rest = rest' := by
  obtain ⟨htake, hdrop⟩ := takeWhile_of_stops hrun hend
  obtain ⟨htake', hdrop'⟩ := takeWhile_of_stops hrun' hend'
  exact ⟨by rw [← htake, h, htake'], by rw [← hdrop, h, hdrop']⟩

theorem tells_runs : Tells (fun run : Text => ∀ c ∈ run, isNameChar c = true) id id :=
  fun _ _ _ _ hrun hrun' hend hend' h => run_append_inj hrun hrun' hend hend' h

/-- The texts of some things, with a separator in front of each. -/
def separated (sep : Text) (text : α → Text) (as : List α) : Text :=
  as.flatMap fun a => sep ++ text a

theorem intercalate_cons (sep : Text) (text : α → Text) (a : α) (as : List α) :
    sep.intercalate ((a :: as).map text) = text a ++ separated sep text as := by
  induction as generalizing a with
  | nil => simp [separated]
  | cons b as ih =>
      rw [List.map_cons, List.map_cons, List.intercalate_cons_cons, ← List.map_cons, ih, separated,
        separated, List.flatMap_cons, List.append_assoc, List.append_assoc]

variable {c : Char} {sep rest rest' : Text} {as as' : List α}

theorem stops_separated (hc : isNameChar c = false) (hend : Stops isNameChar rest) :
    Stops isNameChar (separated (c :: sep) text as ++ rest) := by
  cases as with
  | nil => exact hend
  | cons => exact stops_cons hc _

theorem Tells.separated (h : Tells P text said) (hc : isNameChar c = false) (has : ∀ a ∈ as, P a)
    (has' : ∀ a ∈ as', P a) (hend : Stops isNameChar rest) (hend' : Stops isNameChar rest')
    (hrest : rest.head? ≠ some c) (hrest' : rest'.head? ≠ some c)
    (heq : separated (c :: sep) text as ++ rest = separated (c :: sep) text as' ++ rest') :
    as.map said = as'.map said ∧ rest = rest' := by
  induction as generalizing as' with
  | nil =>
      cases as' with
      | nil => exact ⟨rfl, heq⟩
      | cons => exact absurd (congrArg List.head? heq) hrest
  | cons a as ih =>
      cases as' with
      | nil => exact absurd (congrArg List.head? heq.symm) hrest'
      | cons a' as' =>
          rw [List.forall_mem_cons] at has has'
          simp only [Ibcmc.separated, List.flatMap_cons, List.cons_append, List.append_assoc,
            List.cons.injEq, true_and, List.append_cancel_left_eq] at heq
          obtain ⟨hsaid, heq⟩ :=
            h has.1 has'.1 (stops_separated hc hend) (stops_separated hc hend') heq
          obtain ⟨hmap, hrest⟩ := ih has.2 has'.2 heq
          exact ⟨by rw [List.map_cons, List.map_cons, hsaid, hmap], hrest⟩

/-- **Texts with separators between them tell what each of them tells**, if no name goes
on with the separator and nothing else follows that starts like it. -/
theorem Tells.intercalate (h : Tells P text said) {a a' : α} (hc : isNameChar c = false)
    (has : ∀ b ∈ a :: as, P b) (has' : ∀ b ∈ a' :: as', P b) (hend : Stops isNameChar rest)
    (hend' : Stops isNameChar rest') (hrest : rest.head? ≠ some c) (hrest' : rest'.head? ≠ some c)
    (heq : (c :: sep).intercalate ((a :: as).map text) ++ rest =
      (c :: sep).intercalate ((a' :: as').map text) ++ rest') :
    (a :: as).map said = (a' :: as').map said ∧ rest = rest' := by
  rw [List.forall_mem_cons] at has has'
  rw [intercalate_cons, intercalate_cons, List.append_assoc, List.append_assoc] at heq
  obtain ⟨hsaid, heq⟩ := h has.1 has'.1 (stops_separated hc hend) (stops_separated hc hend') heq
  obtain ⟨hmap, hrest⟩ := h.separated hc has.2 has'.2 hend hend' hrest hrest' heq
  exact ⟨by rw [List.map_cons, List.map_cons, hsaid, hmap], hrest⟩

end Tells

/-! ## Names and numbers -/

/-- A value is a name: a letter, and letters and digits behind it. -/
inductive Value.IsName : Value → Prop
  | mk {c : Char} {others : Text} (hc : isLetter c = true)
      (hothers : ∀ d ∈ others, isNameChar d = true) : IsName (.text (c :: others))

/-- A value is a number. -/
inductive Value.IsNumber : Value → Prop
  | mk (n : Int) : IsNumber (.number n)

theorem tells_names : Tells Value.IsName Value.chars id := by
  rintro _ _ rest rest' ⟨hc, hothers⟩ ⟨hc', hothers'⟩ hend hend' h
  have hrun {c : Char} {others : Text} (hc : isLetter c = true)
      (hothers : ∀ d ∈ others, isNameChar d = true) : ∀ d ∈ c :: others, isNameChar d = true :=
    List.forall_mem_cons.mpr ⟨by rw [isNameChar, hc, Bool.true_or], hothers⟩
  obtain ⟨heq, hrest⟩ := tells_runs (hrun hc hothers) (hrun hc' hothers') hend hend' h
  exact ⟨congrArg Value.text heq, hrest⟩

theorem isNameChar_of_isDigit {c : Char} (h : Decimal.isDigit c = true) : isNameChar c = true := by
  rw [isNameChar, h, Bool.or_true]

theorem chars_ofNat (n : Nat) : (Value.number (Int.ofNat n)).chars = Nat.toDigits 10 n :=
  chars_number n

theorem chars_negSucc (n : Nat) :
    (Value.number (Int.negSucc n)).chars = '-' :: Nat.toDigits 10 (n + 1) := by
  have hsign : toString (Int.negSucc n) = "-" ++ Nat.repr (n + 1) := rfl
  rw [Value.chars, hsign, String.toList_append, Nat.toList_repr]
  rfl

theorem head_toDigits (n : Nat) :
    ∃ c others, Nat.toDigits 10 n = c :: others ∧ Decimal.isDigit c = true := by
  have hrun : IsRun (Nat.toDigits 10 n) [] := isRun_toDigits n nofun
  obtain ⟨c, others, hdigits⟩ := List.exists_cons_of_ne_nil hrun.nonempty
  exact ⟨c, others, hdigits, hrun.digits c (hdigits ▸ List.mem_cons_self)⟩

/-- A number is written with a sign or a digit first. -/
theorem head_chars_number (n : Int) :
    ∃ c others, (Value.number n).chars = c :: others ∧ (c = '-' ∨ Decimal.isDigit c = true) := by
  cases n with
  | ofNat n =>
      obtain ⟨c, others, hdigits, hc⟩ := head_toDigits n
      exact ⟨c, others, (chars_ofNat n).trans hdigits, .inr hc⟩
  | negSucc n => exact ⟨'-', _, chars_negSucc n, .inl rfl⟩

theorem tells_digits : Tells (fun _ : Nat => True) (Nat.toDigits 10) id := by
  intro n n' rest rest' _ _ hend hend' h
  have hname (n : Nat) : ∀ c ∈ Nat.toDigits 10 n, isNameChar c = true := by
    have hrun : IsRun (Nat.toDigits 10 n) [] := isRun_toDigits n nofun
    exact fun c hc => isNameChar_of_isDigit (hrun.digits c hc)
  obtain ⟨heq, hrest⟩ := tells_runs (hname n) (hname n') hend hend' h
  have hdigits : Nat.toDigits 10 n = Nat.toDigits 10 n' := heq
  refine ⟨?_, hrest⟩
  rw [← Nat.ofDigitChars_ten_toDigits (n := n), hdigits, Nat.ofDigitChars_ten_toDigits]

theorem tells_numbers : Tells (fun _ : Int => True) (fun n => (Value.number n).chars) id := by
  -- digits start with no sign
  have hsign (n : Nat) (rest rest' : Text) : Nat.toDigits 10 n ++ rest ≠ '-' :: rest' := by
    obtain ⟨c, others, hdigits, hc⟩ := head_toDigits n
    intro heq
    rw [hdigits, List.cons_append, List.cons.injEq] at heq
    rw [heq.1] at hc
    exact absurd hc (by decide)
  intro n n' rest rest' _ _ hend hend' h
  dsimp only at h
  cases n with
  | ofNat n =>
      rw [chars_ofNat] at h
      cases n' with
      | ofNat n' =>
          rw [chars_ofNat] at h
          obtain ⟨heq, hrest⟩ := tells_digits trivial trivial hend hend' h
          exact ⟨congrArg Int.ofNat heq, hrest⟩
      | negSucc n' =>
          rw [chars_negSucc] at h
          exact absurd h (hsign _ _ _)
  | negSucc n =>
      rw [chars_negSucc] at h
      cases n' with
      | ofNat n' =>
          rw [chars_ofNat] at h
          exact absurd h.symm (hsign _ _ _)
      | negSucc n' =>
          rw [chars_negSucc] at h
          obtain ⟨heq, hrest⟩ := tells_digits trivial trivial hend hend' (List.cons.inj h).2
          exact ⟨congrArg Int.negSucc (Nat.succ.inj heq), hrest⟩

/-! ## Plain trees -/

/-- What is said is plain if a name is a name and a literal is a number, as with the
tokens of a text. -/
def PlainWord : Kind × Value → Prop
  | (.ident, v) => v.IsName
  | (.intLiteral, v) => v.IsNumber
  | _ => True

/-- An expression with plain names and literals. -/
def Expr.Plain (e : Expr) : Prop := ∀ word ∈ e.flatten, PlainWord word

/-- A declaration with a plain name. -/
def Decl.Plain (d : Decl) : Prop := ∀ word ∈ d.flatten, PlainWord word

/-- A statement with plain names and literals. -/
def Stmt.Plain (s : Stmt) : Prop := ∀ word ∈ s.flatten, PlainWord word

/-- Plain statements, one behind another. -/
def PlainAll (body : List Stmt) : Prop := ∀ word ∈ flattenAll body, PlainWord word

theorem IsLexeme.plain {chars rest : Text} {word : Kind × Value}
    (h : IsLexeme chars rest (some word)) : PlainWord word := by
  cases h with
  | literal => exact .mk _
  | @keyword kind _ hkind =>
      simp only [keywords, List.mem_cons, List.not_mem_nil, or_false] at hkind
      rcases hkind with rfl | rfl | rfl <;> trivial
  | name hc hothers => exact .mk hc hothers
  | @sign kind _ hkind =>
      simp only [signs, List.mem_cons, List.not_mem_nil, or_false] at hkind
      rcases hkind with rfl | rfl | rfl | rfl | rfl | rfl | rfl | rfl | rfl | rfl | rfl <;> trivial

/-- **What the tokens of a text say is plain.** -/
theorem Scans.plain {t before rest : Text} {tokens : List Token}
    (h : Scans t before rest tokens) : ∀ token ∈ tokens, PlainWord token.content := by
  have hsaid : ∀ token ∈ tokens, PlainWord (token.kind, token.value) := by
    induction h with
    | start => exact fun _ h => absurd h List.not_mem_nil
    | separator _ _ ih => exact ih
    | token _ hlexeme ih =>
        exact List.forall_mem_append.mpr ⟨ih, List.forall_mem_singleton.mpr hlexeme.plain⟩
  intro token htoken
  rw [(h.spelled token htoken).1.content_eq]
  exact hsaid token htoken

theorem Expr.plain_binary_iff {op : BinOp} {lhs rhs : Expr} :
    (Expr.binary op lhs rhs).Plain ↔ lhs.Plain ∧ rhs.Plain := by
  have hop : PlainWord op.kind.content := by cases op <;> trivial
  simp only [Plain, flatten, List.forall_mem_append, List.forall_mem_cons, hop, true_and]

theorem Decl.Plain.isName {d : Decl} (h : d.Plain) : d.name.IsName :=
  h (.ident, d.name) (by simp [flatten])

theorem Decl.plain_of_mem {d : Decl} {ds : List Decl}
    (h : ∀ word ∈ flattenParams ds, PlainWord word) (hd : d ∈ ds) : d.Plain := by
  fun_induction flattenParams ds with
  | case1 => cases hd
  | case2 d' =>
      obtain rfl := List.mem_singleton.mp hd
      exact h
  | case3 d' ds _ ih =>
      rw [List.forall_mem_append, List.forall_mem_cons] at h
      rcases List.mem_cons.mp hd with rfl | hd
      · exact h.1
      · exact ih h.2.2 hd

/-- The parts of a statement are plain. -/
def Stmt.PlainParts : Stmt → Prop
  | .block body _ => PlainAll body
  | .assign name value _ | .compound name _ value _ => name.IsName ∧ value.Plain
  | .decl d _ => d.Plain
  | .init d value _ => d.Plain ∧ value.Plain
  | .function d params body _ _ => d.Plain ∧ (∀ p ∈ params, p.Plain) ∧ PlainAll body
  | .expr value _ => value.Plain
  | .empty _ => True

theorem Stmt.Plain.parts {s : Stmt} (h : s.Plain) : s.PlainParts := by
  cases s <;> simp only [Plain, flatten, List.forall_mem_append, List.forall_mem_cons] at h
  case block => exact h.2.1
  case assign | compound => exact ⟨h.1, h.2.2.1⟩
  case decl | expr => exact h.1
  case init => exact ⟨h.1, h.2.2.1⟩
  case function =>
    obtain ⟨hd, -, hparams, -, -, hbody, -⟩ := h
    exact ⟨hd, fun p hp => Decl.plain_of_mem hparams hp, hbody⟩
  case empty => trivial

/-! ## Expressions -/

theorem Expr.toList_text_binary (op : BinOp) (lhs rhs : Expr) :
    (Expr.binary op lhs rhs).text.toList =
      '(' :: (lhs.text.toList ++ ' ' :: (op.spelling.toList ++
        ' ' :: (rhs.text.toList ++ [')']))) := by
  simp only [Expr.text, toString, String.toList_append, List.append_assoc]
  rfl

/-- The form of an expression, as the kind of what it is written with first. -/
def Expr.form : Expr → Kind
  | .literal _ => .intLiteral
  | .ident _ => .ident
  | .binary .. => .leftParen

/-- The form of the expressions that start with a character. -/
def formAt (c : Char) : Kind :=
  if c = '(' then .leftParen else if isLetter c then .ident else .intLiteral

theorem Expr.Plain.head {e : Expr} (he : e.Plain) :
    ∃ c others, e.text.toList = c :: others ∧ formAt c = e.form := by
  cases e with
  | literal v =>
      obtain ⟨n⟩ : v.IsNumber := he _ (List.mem_singleton.mpr rfl)
      obtain ⟨c, others, hchars, hc⟩ := head_chars_number n
      refine ⟨c, others, String.toList_ofList.trans hchars, ?_⟩
      have hletter : isLetter c = false := by
        rcases hc with rfl | hdigit
        · rfl
        · exact Bool.eq_false_iff.mpr fun hletter =>
            absurd (not_isDigit_of_isLetter hletter) (by rw [hdigit]; decide)
      have hparen : c ≠ '(' := by
        rintro rfl
        rcases hc with hc | hc <;> exact absurd hc (by decide)
      rw [formAt, if_neg hparen, hletter]
      rfl
  | ident v =>
      obtain ⟨hc, hothers⟩ : v.IsName := he _ (List.mem_singleton.mpr rfl)
      refine ⟨_, _, String.toList_ofList, ?_⟩
      rw [formAt, if_neg (by rintro rfl; exact absurd hc (by decide)), if_pos hc]
      rfl
  | binary op lhs rhs => exact ⟨_, _, toList_text_binary op lhs rhs, rfl⟩

/-- Texts that start alike are of expressions of one form. -/
theorem Expr.Plain.form_eq {e e' : Expr} {rest rest' : Text} (he : e.Plain) (he' : e'.Plain)
    (h : e.text.toList ++ rest = e'.text.toList ++ rest') : e.form = e'.form := by
  obtain ⟨c, others, htext, hform⟩ := he.head
  obtain ⟨c', others', htext', hform'⟩ := he'.head
  rw [htext, htext', List.cons_append, List.cons_append, List.cons.injEq] at h
  rw [← hform, ← hform', h.1]

theorem BinOp.tells_spelling {op op' : BinOp} {rest rest' : Text}
    (h : op.spelling.toList ++ rest = op'.spelling.toList ++ rest') : op = op' ∧ rest = rest' := by
  revert h
  cases op <;> cases op' <;> simp [spelling]

/-- **The text of an expression tells how its operators nest.** -/
theorem tells_expressions : Tells Expr.Plain (fun e => e.text.toList) id := by
  intro e
  induction e with
  | literal v =>
      intro e' rest rest' he he' hend hend' h
      have hform := he.form_eq he' h
      cases e' with
      | ident | binary => cases hform
      | literal v' =>
          obtain ⟨n⟩ : v.IsNumber := he _ (List.mem_singleton.mpr rfl)
          obtain ⟨n'⟩ : v'.IsNumber := he' _ (List.mem_singleton.mpr rfl)
          simp only [Expr.text, Value.written, String.toList_ofList] at h
          obtain ⟨rfl, hrest⟩ := tells_numbers trivial trivial hend hend' h
          exact ⟨rfl, hrest⟩
  | ident v =>
      intro e' rest rest' he he' hend hend' h
      have hform := he.form_eq he' h
      cases e' with
      | literal | binary => cases hform
      | ident v' =>
          simp only [Expr.text, Value.written, String.toList_ofList] at h
          obtain ⟨rfl, hrest⟩ := tells_names (he _ (List.mem_singleton.mpr rfl))
            (he' _ (List.mem_singleton.mpr rfl)) hend hend' h
          exact ⟨rfl, hrest⟩
  | binary op lhs rhs ihlhs ihrhs =>
      intro e' rest rest' he he' hend hend' h
      have hform := he.form_eq he' h
      cases e' with
      | literal | ident => cases hform
      | binary op' lhs' rhs' =>
          obtain ⟨hlhs, hrhs⟩ := Expr.plain_binary_iff.mp he
          obtain ⟨hlhs', hrhs'⟩ := Expr.plain_binary_iff.mp he'
          simp only [Expr.toList_text_binary, List.cons_append, List.append_assoc,
            List.nil_append, List.cons.injEq, true_and] at h
          obtain ⟨rfl, hop⟩ := ihlhs hlhs hlhs' (stops_cons rfl _) (stops_cons rfl _) h
          obtain ⟨rfl, hmore⟩ := BinOp.tells_spelling (List.cons.inj hop).2
          obtain ⟨rfl, hend⟩ := ihrhs hrhs hrhs' (stops_cons rfl _) (stops_cons rfl _)
            (List.cons.inj hmore).2
          exact ⟨rfl, (List.cons.inj hend).2⟩

/-! ## Declarations -/

/-- What a declaration is written with in front of its name. -/
def Decl.start (d : Decl) : Text :=
  (if d.isConst then "const ".toList else []) ++ d.type.spelling.toList

theorem Decl.toList_text (d : Decl) : d.text.toList = d.start ++ ' ' :: d.name.chars := by
  obtain ⟨isConst, type, name⟩ := d
  simp only [text, start, toString, String.toList_append, List.append_assoc, Value.written,
    String.toList_ofList]
  cases isConst <;> rfl

theorem tells_declarations : Tells Decl.Plain (fun d => d.text.toList) id := by
  intro d d' rest rest' hd hd' hend hend' h
  have hname := hd.isName
  have hname' := hd'.isName
  simp only [Decl.toList_text, List.append_assoc, List.cons_append] at h
  obtain ⟨isConst, type, name⟩ := d
  obtain ⟨isConst', type', name'⟩ := d'
  have hstart : isConst = isConst' ∧ type = type' ∧ name.chars ++ rest = name'.chars ++ rest' := by
    revert h
    cases isConst <;> cases isConst' <;> cases type <;> cases type' <;>
      simp [Decl.start, TypeName.spelling]
  obtain ⟨rfl, rfl, hmore⟩ := hstart
  obtain ⟨rfl, hrest⟩ := tells_names hname hname' hend hend' hmore
  exact ⟨rfl, hrest⟩

/-- No declaration starts with a closing parenthesis. -/
theorem Decl.head?_text (d : Decl) (rest : Text) :
    (d.text.toList ++ rest).head? ≠ some ')' := by
  obtain ⟨isConst, type, name⟩ := d
  rw [toList_text]
  cases isConst <;> cases type <;> simp [start, TypeName.spelling]

/-- Parameters as a line shows them. -/
def shownParams (params : List Decl) : Text :=
  [',', ' '].intercalate (params.map fun d => d.text.toList)

theorem tells_params {ds ds' : List Decl} {rest rest' : Text} (hds : ∀ d ∈ ds, d.Plain)
    (hds' : ∀ d ∈ ds', d.Plain)
    (h : shownParams ds ++ ')' :: rest = shownParams ds' ++ ')' :: rest') :
    ds = ds' ∧ rest = rest' := by
  have hfirst (d : Decl) (ds : List Decl) (rest : Text) :
      (shownParams (d :: ds) ++ rest).head? ≠ some ')' := by
    rw [shownParams, intercalate_cons, List.append_assoc]
    exact d.head?_text _
  cases ds with
  | nil =>
      cases ds' with
      | nil => exact ⟨rfl, (List.cons.inj h).2⟩
      | cons d' ds' => exact absurd (congrArg List.head? h).symm (hfirst d' ds' _)
  | cons d ds =>
      cases ds' with
      | nil => exact absurd (congrArg List.head? h) (hfirst d ds _)
      | cons d' ds' =>
          have hcomma : isNameChar ',' = false := rfl
          obtain ⟨hmap, hrest⟩ := tells_declarations.intercalate hcomma hds hds'
            (stops_cons rfl _) (stops_cons rfl _) (by simp) (by simp) h
          rw [List.map_id, List.map_id] at hmap
          exact ⟨hmap, (List.cons.inj hrest).2⟩

/-! ## Labels -/

/-- A line as a label shows it. -/
def shownLine (line : Int) : Text := ' ' :: ' ' :: '@' :: 'L' :: (Value.number line).chars

/-- What a label shows of an assigned value, and the line. -/
def shownValue (value : Expr) (line : Int) : Text :=
  '=' :: ' ' :: (value.text.toList ++ shownLine line)

/-- The first word of a label. -/
def Stmt.tag : Stmt → String
  | .block .. => "Block"
  | .assign .. => "Assign"
  | .compound .. => "CompoundAssign"
  | .decl .. => "Decl"
  | .init .. => "Init"
  | .function .. => "Function"
  | .expr .. => "Expr"
  | .empty .. => "Empty"

/-- A label behind its first word. -/
def Stmt.details : Stmt → Text
  | .block .. => []
  | .assign name value line => ' ' :: (name.chars ++ ' ' :: shownValue value line)
  | .compound name op value line =>
    ' ' :: (name.chars ++ ' ' :: (op.spelling.toList ++ shownValue value line))
  | .decl d line => ' ' :: (d.text.toList ++ shownLine line)
  | .init d value line => ' ' :: (d.text.toList ++ ' ' :: shownValue value line)
  | .function d params _ _ line =>
    ' ' :: (d.text.toList ++ '(' :: (shownParams params ++ ')' :: shownLine line))
  | .expr value line => ' ' :: (value.text.toList ++ shownLine line)
  | .empty line => shownLine line

theorem Stmt.toList_label (s : Stmt) : s.label.toList = s.tag.toList ++ s.details := by
  cases s with
  | block => exact (List.append_nil _).symm
  | _ =>
    -- the cases are opened by `delta`: the equations of `label` take long to derive
    delta label tag details
    simp only [shownLine, shownValue, shownParams, toString, String.toList_append,
      String.toList_intercalate, List.map_map, Value.written, Value.chars, String.toList_ofList,
      List.append_assoc]
    rfl

theorem Stmt.isNameChar_of_mem_tag (s : Stmt) : ∀ c ∈ s.tag.toList, isNameChar c = true := by
  have hall : s.tag.toList.all isNameChar = true := by
    cases s <;> rw [tag] <;> decide
  exact List.all_eq_true.mp hall

theorem Stmt.stops_details (s : Stmt) {rest : Text} (hend : Stops isNameChar rest) :
    Stops isNameChar (s.details ++ rest) := by
  cases s with
  | block => exact hend
  | _ => exact stops_cons rfl _

/-- What the line of a statement shows of it: all but what it holds and the lines of
blocks. -/
def Stmt.shown : Stmt → Stmt
  | .block _ _ => .block [] 0
  | .function d params _ _ line => .function d params [] 0 line
  | s => s

theorem tells_lines : Tells (fun _ : Int => True) shownLine id := by
  intro line line' rest rest' _ _ hend hend' h
  simp only [shownLine, List.cons_append, List.cons.injEq, true_and] at h
  exact tells_numbers trivial trivial hend hend' h

theorem tells_values {value value' : Expr} {line line' : Int} {rest rest' : Text}
    (hvalue : value.Plain) (hvalue' : value'.Plain) (hend : Stops isNameChar rest)
    (hend' : Stops isNameChar rest')
    (h : value.text.toList ++ (shownLine line ++ rest) =
      value'.text.toList ++ (shownLine line' ++ rest')) :
    value = value' ∧ line = line' ∧ rest = rest' := by
  obtain ⟨rfl, hline⟩ := tells_expressions hvalue hvalue' (stops_cons rfl _) (stops_cons rfl _) h
  obtain ⟨rfl, hrest⟩ := tells_lines trivial trivial hend hend' hline
  exact ⟨rfl, rfl, hrest⟩

/-- **The line of a statement tells its form and all that it shows.** The first word
tells the form, and what follows is told part by part. -/
theorem tells_labels : Tells Stmt.Plain (fun s => s.label.toList) Stmt.shown := by
  intro s s' rest rest' hs hs' hend hend' h
  simp only [Stmt.toList_label, List.append_assoc] at h
  obtain ⟨htag, hdetails⟩ := tells_runs s.isNameChar_of_mem_tag s'.isNameChar_of_mem_tag
    (s.stops_details hend) (s'.stops_details hend') h
  replace htag : s.tag = s'.tag := String.toList_inj.mp htag
  replace hs := hs.parts
  replace hs' := hs'.parts
  -- the first words tell the forms apart
  cases s <;> cases s' <;> simp only [Stmt.tag, String.reduceEq] at htag
  all_goals
    simp only [Stmt.details, shownValue, List.cons_append, List.nil_append, List.append_assoc,
      List.cons.injEq, true_and] at hdetails
  case block.block => exact ⟨rfl, hdetails⟩
  case assign.assign =>
    obtain ⟨rfl, hvalue⟩ := tells_names hs.1 hs'.1 (stops_cons rfl _) (stops_cons rfl _) hdetails
    simp only [List.cons.injEq, true_and] at hvalue
    obtain ⟨rfl, rfl, hrest⟩ := tells_values hs.2 hs'.2 hend hend' hvalue
    exact ⟨rfl, hrest⟩
  case compound.compound =>
    obtain ⟨rfl, hop⟩ := tells_names hs.1 hs'.1 (stops_cons rfl _) (stops_cons rfl _) hdetails
    obtain ⟨rfl, hvalue⟩ := BinOp.tells_spelling (List.cons.inj hop).2
    simp only [List.cons.injEq, true_and] at hvalue
    obtain ⟨rfl, rfl, hrest⟩ := tells_values hs.2 hs'.2 hend hend' hvalue
    exact ⟨rfl, hrest⟩
  case decl.decl =>
    obtain ⟨rfl, hline⟩ := tells_declarations hs hs' (stops_cons rfl _) (stops_cons rfl _) hdetails
    obtain ⟨rfl, hrest⟩ := tells_lines trivial trivial hend hend' hline
    exact ⟨rfl, hrest⟩
  case init.init =>
    obtain ⟨rfl, hvalue⟩ :=
      tells_declarations hs.1 hs'.1 (stops_cons rfl _) (stops_cons rfl _) hdetails
    simp only [List.cons.injEq, true_and] at hvalue
    obtain ⟨rfl, rfl, hrest⟩ := tells_values hs.2 hs'.2 hend hend' hvalue
    exact ⟨rfl, hrest⟩
  case function.function =>
    obtain ⟨rfl, hparams⟩ :=
      tells_declarations hs.1 hs'.1 (stops_cons rfl _) (stops_cons rfl _) hdetails
    obtain ⟨rfl, hline⟩ := tells_params hs.2.1 hs'.2.1 (List.cons.inj hparams).2
    obtain ⟨rfl, hrest⟩ := tells_lines trivial trivial hend hend' hline
    exact ⟨rfl, hrest⟩
  case expr.expr =>
    obtain ⟨rfl, rfl, hrest⟩ := tells_values hs hs' hend hend' hdetails
    exact ⟨rfl, hrest⟩
  case empty.empty =>
    obtain ⟨rfl, hrest⟩ := tells_lines trivial trivial hend hend' hdetails
    exact ⟨rfl, hrest⟩

end IttyBitty.Ibcmc
