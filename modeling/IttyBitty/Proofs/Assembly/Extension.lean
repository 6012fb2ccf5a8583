import IttyBitty.Proofs.Assembly.Reporting

/-!
# Programs with more lines behind them

Lines behind a program add labels and statements to it and take nothing back. So the
first pass finds the faults that it found before, a label keeps its index, and a
statement that has a word keeps that word.
-/

namespace IttyBitty.Assembly

/-! ## Labels -/

namespace Labels

/-- Every label that is bound keeps its index. -/
protected def Le (old new : Labels) : Prop :=
  ∀ label index, old.lookup label = some index → new.lookup label = some index

variable {old new : Labels}

protected theorem Le.refl (bound : Labels) : bound.Le bound := fun _ _ h => h

protected theorem Le.trans {newer : Labels} (h : old.Le new) (h' : new.Le newer) :
    old.Le newer := fun label index hlookup => h' label index (h label index hlookup)

/-- A label that has not been bound hides no other. -/
theorem le_cons {label : Text} (hfresh : old.lookup label = none) (index : Nat) :
    old.Le ((label, index) :: old) := by
  intro label' index' hlookup
  have hne : (label' == label) = false := by
    rw [beq_eq_false_iff_ne]
    rintro rfl
    rw [hfresh] at hlookup
    cases hlookup
  rw [List.lookup_cons, hne]
  exact hlookup

theorem Le.resolve (h : old.Le new) {label : Text} {index : Nat}
    (hold : old.resolve label = .ok index) : new.resolve label = .ok index := by
  rw [Labels.resolve] at hold ⊢
  cases hlookup : old.lookup label with
  | none =>
      rw [hlookup] at hold
      cases hold
  | some found =>
      rw [hlookup] at hold
      rw [h label found hlookup]
      exact hold

/-- A statement keeps its word when labels are added. -/
theorem Le.word (h : old.Le new) {body : Body} {w : Word} (hold : body.word old = .ok w) :
    body.word new = .ok w := by
  cases body with
  | data digits => exact hold
  | plain op => exact hold
  | shift op amount => exact hold
  | address op label =>
      rw [Body.word] at hold ⊢
      cases hresolve : old.resolve label with
      | error problem =>
          rw [hresolve] at hold
          cases hold
      | ok index =>
          rw [hresolve] at hold
          rw [h.resolve hresolve]
          exact hold

end Labels

/-! ## The first pass -/

/-- The second assembler has read more lines than the first, which had the numbers from
`first` to below `last`. -/
structure Grows (first last : Nat) (a a' : Assembler) : Prop where
  labels : Labels.Le a.labels a'.labels
  statements : ∃ added : List Statement, a'.statements.toList = a.statements.toList ++ added ∧
    ∀ s ∈ added, first ≤ s.number ∧ s.number < last

/-- The error is one that names no line, or of a line with one of these numbers. -/
inductive ErrorWithin (first last : Nat) : Error → Prop
  | tooManyStatements : ErrorWithin first last .tooManyStatements
  | amountTooLong : ErrorWithin first last .amountTooLong
  | line {problem : Problem} {number : Nat} {text : Text} (hfirst : first ≤ number)
      (hlast : number < last) : ErrorWithin first last (.line problem number text)

theorem ErrorWithin.mono {first last first' last' : Nat} {e : Error}
    (h : ErrorWithin first last e) (hfirst : first' ≤ first) (hlast : last ≤ last') :
    ErrorWithin first' last' e := by
  cases h with
  | tooManyStatements => exact .tooManyStatements
  | amountTooLong => exact .amountTooLong
  | line hfirst' hlast' => exact .line (by omega) (by omega)

theorem errorWithin_ofProblem {first last number : Nat} (hfirst : first ≤ number)
    (hlast : number < last) (problem : Problem) (raw : Text) :
    ErrorWithin first last (.ofProblem problem number raw) := by
  rw [Error.ofProblem]
  split
  · exact .amountTooLong
  · exact .line hfirst hlast

variable {a a' a'' : Assembler} {number first last : Nat} {raw : Text} {e : Error}

theorem Grows.refl (a : Assembler) (number : Nat) : Grows number number a a :=
  ⟨.refl _, [], (List.append_nil _).symm, by simp⟩

theorem Grows.trans {mid : Nat} (h : Grows first mid a a') (h' : Grows mid last a' a'')
    (hfirst : first ≤ mid) (hlast : mid ≤ last) : Grows first last a a'' := by
  obtain ⟨added, hadded, hnumbers⟩ := h.statements
  obtain ⟨added', hadded', hnumbers'⟩ := h'.statements
  refine ⟨h.labels.trans h'.labels, added ++ added', ?_, ?_⟩
  · rw [hadded', hadded, List.append_assoc]
  · intro s hs
    rcases List.mem_append.mp hs with hs | hs
    · have hs := hnumbers s hs
      omega
    · have hs := hnumbers' s hs
      omega

theorem grows_bindLabel {label : Option Text} (h : a.bindLabel label = .ok a') :
    Labels.Le a.labels a'.labels ∧ a'.statements = a.statements := by
  cases label with
  | none =>
      cases h
      exact ⟨.refl _, rfl⟩
  | some label =>
      rw [Assembler.bindLabel] at h
      split at h
      · cases h
      · rename_i hfresh
        cases h
        exact ⟨Labels.le_cons (Option.not_isSome_iff_eq_none.mp hfresh) _, rfl⟩

/-- Reading lines with these numbers has added to an assembler, or it has come to an
error of one of them. -/
inductive Adds (first last : Nat) (a : Assembler) : Assembler × Option Error → Prop
  | grown {a' : Assembler} (h : Grows first last a a') : Adds first last a (a', none)
  | failed {a' : Assembler} {e : Error} (h : ErrorWithin first last e) :
      Adds first last a (a', some e)

/-- The tokens of a line add one statement at most. -/
theorem adds_readTokens (a : Assembler) (number : Nat) (raw : Text) (tokens : List Text) :
    Adds number (number + 1) a (a.readTokens number raw tokens) := by
  cases tokens with
  | nil => exact .grown ⟨.refl _, [], (List.append_nil _).symm, by simp⟩
  | cons mnemonic operands =>
      rw [Assembler.readTokens]
      split
      · exact .failed .tooManyStatements
      · cases Body.ofTokens mnemonic operands with
        | error problem => exact .failed (errorWithin_ofProblem (Nat.le_refl _) (Nat.lt_succ_self _) problem raw)
        | ok body =>
            refine .grown ⟨.refl _, [⟨body, number, raw⟩], ?_, ?_⟩
            · simp [Assembler.addStatement]
            · simp

/-- **A line only adds**, and has no errors but its own. -/
theorem adds_readLine (a : Assembler) (number : Nat) (raw : Text) :
    Adds number (number + 1) a (a.readLine number raw) := by
  rw [Assembler.readLine]
  cases Line.parse? raw with
  | none => exact .failed (errorWithin_ofProblem (Nat.le_refl _) (Nat.lt_succ_self _) _ raw)
  | some line =>
      dsimp only
      cases hbind : a.bindLabel line.label with
      | error problem => exact .failed (errorWithin_ofProblem (Nat.le_refl _) (Nat.lt_succ_self _) problem raw)
      | ok bound =>
          obtain ⟨hlabels, hstatements⟩ := grows_bindLabel hbind
          have htokens := adds_readTokens bound number raw line.tokens
          dsimp only
          generalize bound.readTokens number raw line.tokens = r at htokens ⊢
          cases htokens with
          | failed h => exact .failed h
          | grown h =>
              obtain ⟨hlabels', added, hadded, hnumbers⟩ := h
              refine .grown ⟨hlabels.trans hlabels', added, ?_, hnumbers⟩
              rw [← hstatements]
              exact hadded

/-- **Lines only add**, and have no errors but their own. -/
theorem adds_readLines (a : Assembler) (number : Nat) (raws : List Text) :
    Adds number (number + raws.length) a (a.readLines number raws) := by
  induction raws generalizing a number with
  | nil => exact .grown (.refl a number)
  | cons raw raws ih =>
      have hline := adds_readLine a number raw
      rw [Assembler.readLines, List.length_cons]
      generalize a.readLine number raw = r at hline ⊢
      cases hline with
      | failed h => exact .failed (h.mono (by omega) (by omega))
      | @grown a' h =>
          have hlines := ih a' (number + 1)
          dsimp only
          generalize a'.readLines (number + 1) raws = r' at hlines ⊢
          cases hlines with
          | failed h' => exact .failed (h'.mono (by omega) (by omega))
          | grown h' =>
              rw [Nat.add_comm raws.length, ← Nat.add_assoc]
              exact .grown (h.trans h' (by omega) (by omega))

/-- Lines are read one part after the other. -/
theorem readLines_append (a : Assembler) (number : Nat) (above below : List Text) :
    a.readLines number (above ++ below) =
      match a.readLines number above with
      | (a', none) => a'.readLines (number + above.length) below
      | (a', some e) => (a', some e) := by
  induction above generalizing a number with
  | nil => rfl
  | cons raw above ih =>
      rw [List.cons_append, Assembler.readLines, Assembler.readLines, List.length_cons]
      rcases a.readLine number raw with ⟨a', _ | e⟩
      · dsimp only
        rw [ih, Nat.add_comm above.length, Nat.add_assoc]
      · rfl

/-! ## The second pass -/

variable {old new : Labels} {done ws : Array Word} {ss : List Statement}

theorem wordsFrom_append (bound : Labels) (done : Array Word) (ss rest : List Statement) :
    Assembler.wordsFrom bound done (ss ++ rest) =
      match Assembler.wordsFrom bound done ss with
      | (ws, none) => Assembler.wordsFrom bound ws rest
      | (ws, some e) => (ws, some e) := by
  induction ss generalizing done with
  | nil => rfl
  | cons s ss ih =>
      rw [List.cons_append, Assembler.wordsFrom, Assembler.wordsFrom]
      cases s.body.word bound with
      | ok w => exact ih (done.push w)
      | error problem => rfl

/-- Statements that have words keep them when labels are added. -/
theorem wordsFrom_of_le (h : old.Le new) (hold : Assembler.wordsFrom old done ss = (ws, none)) :
    Assembler.wordsFrom new done ss = (ws, none) := by
  induction ss generalizing done with
  | nil => exact hold
  | cons s ss ih =>
      rw [Assembler.wordsFrom] at hold ⊢
      cases hword : s.body.word old with
      | error problem =>
          rw [hword] at hold
          cases hold
      | ok w =>
          rw [hword] at hold
          rw [h.word hword]
          exact ih hold

/-- Words are only added. -/
theorem prefix_wordsFrom (bound : Labels) (done : Array Word) (ss : List Statement) :
    done.toList <+: (Assembler.wordsFrom bound done ss).1.toList := by
  induction ss generalizing done with
  | nil => exact List.prefix_refl _
  | cons s ss ih =>
      rw [Assembler.wordsFrom]
      cases s.body.word bound with
      | error problem => exact List.prefix_refl _
      | ok w =>
          have hpush : done.toList <+: (done.push w).toList := by
            rw [Array.toList_push]
            exact List.prefix_append _ _
          exact hpush.trans (ih (done.push w))

/-- The error is of one of the statements. -/
theorem wordsFrom_error {bound : Labels}
    (hnumbers : ∀ s ∈ ss, first ≤ s.number ∧ s.number < last)
    (h : (Assembler.wordsFrom bound done ss).2 = some e) : ErrorWithin first last e := by
  induction ss generalizing done with
  | nil => cases h
  | cons s ss ih =>
      obtain ⟨hs, hss⟩ := List.forall_mem_cons.mp hnumbers
      rw [Assembler.wordsFrom] at h
      cases hword : s.body.word bound with
      | error problem =>
          rw [hword] at h
          cases h
          exact errorWithin_ofProblem hs.1 hs.2 problem s.raw
      | ok w =>
          rw [hword] at h
          exact ih hss h

/-! ## Both passes -/

theorem assemble_of_decode {source : Source} {t : Text} (h : source.decode = .ok t) :
    assemble source = assemble (.text t) := by
  rw [assemble, assemble, Assembler.assemble, Assembler.assemble, h]
  rfl

theorem assemble_text_eq_ok_iff {t : Text} {p : Program} :
    assemble (.text t) = .ok p ↔ ∃ a, Assembler.ofText t = (a, none) ∧ p = a.program := by
  rw [assemble, Assembler.assemble, Source.decode]
  rcases htext : Assembler.ofText t with ⟨a, _ | e⟩ <;> simp [htext, eq_comm]

theorem assemble_text_eq_error_iff {t : Text} :
    assemble (.text t) = .error e ↔ (Assembler.ofText t).2 = some e := by
  rw [assemble, Assembler.assemble, Source.decode]
  rcases htext : Assembler.ofText t with ⟨a, _ | e⟩ <;> simp [htext]

/-- What both passes have left of a text that has a program. -/
theorem ofText_eq_none_iff {t : Text} :
    Assembler.ofText t = (a, none) ↔ ∃ read words,
      Assembler.readLines {} 1 (Text.lines t) = (read, none) ∧
        Assembler.wordsFrom read.labels #[] read.statements.toList = (words, none) ∧
        a = { read with words } := by
  rw [Assembler.ofText]
  rcases Assembler.readLines {} 1 (Text.lines t) with ⟨read, _ | e⟩
  · dsimp only
    rw [Assembler.emit]
    rcases hwords : Assembler.wordsFrom read.labels #[] read.statements.toList with
      ⟨words, _ | e⟩ <;> simp [hwords, eq_comm]
  · simp

variable {s t : Text}

/-- A text that the first pass refuses is refused with more lines behind it. -/
theorem ofText_append_of_error (hlines : Text.lines (s ++ t) = Text.lines s ++ Text.lines t)
    (h : (Assembler.readLines {} 1 (Text.lines s)).2 = some e) :
    (Assembler.ofText s).2 = some e ∧ (Assembler.ofText (s ++ t)).2 = some e := by
  rw [Assembler.ofText, Assembler.ofText, hlines, readLines_append]
  rcases hread : Assembler.readLines {} 1 (Text.lines s) with ⟨a, _ | e'⟩
  · rw [hread] at h
    cases h
  · rw [hread] at h
    exact ⟨h, h⟩

/-- What more lines add to a program: labels, and words behind those it has; or an error
of theirs. -/
theorem ofText_append (hlines : Text.lines (s ++ t) = Text.lines s ++ Text.lines t)
    (h : Assembler.ofText s = (a, none)) :
    (∀ a', Assembler.ofText (s ++ t) = (a', none) →
        Labels.Le a.labels a'.labels ∧ a.words.toList <+: a'.words.toList) ∧
      ∀ e, (Assembler.ofText (s ++ t)).2 = some e →
        ErrorWithin (1 + (Text.lines s).length)
          (1 + (Text.lines s).length + (Text.lines t).length) e := by
  obtain ⟨read, words, hread, hwords, rfl⟩ := ofText_eq_none_iff.mp h
  have hadds := adds_readLines read (1 + (Text.lines s).length) (Text.lines t)
  rw [Assembler.ofText, hlines, readLines_append, hread]
  dsimp only
  generalize read.readLines (1 + (Text.lines s).length) (Text.lines t) = r at hadds ⊢
  cases hadds with
  | failed herror =>
      constructor
      · intro a' ha'
        cases ha'
      · rintro e ⟨⟩
        exact herror
  | @grown more hgrows =>
      obtain ⟨hlabels, added, hadded, hnumbers⟩ := hgrows
      -- the words come out as before, and then the pass goes on with the new statements
      have hemit : Assembler.wordsFrom more.labels #[] more.statements.toList =
          Assembler.wordsFrom more.labels words added := by
        rw [hadded, wordsFrom_append, wordsFrom_of_le hlabels hwords]
      dsimp only
      rw [Assembler.emit, hemit]
      constructor
      · intro a' ha'
        obtain rfl := (Prod.mk.inj ha').1
        exact ⟨hlabels, prefix_wordsFrom _ _ _⟩
      · intro e he
        exact wordsFrom_error hnumbers he

/-- An amount that is too long stands in the new lines: the old ones have been read. -/
theorem hasLongAmount_of_append (hlines : Text.lines (s ++ t) = Text.lines s ++ Text.lines t)
    (h : Assembler.ofText s = (a, none))
    (herror : (Assembler.ofText (s ++ t)).2 = some .amountTooLong) :
    ∃ raw ∈ Text.lines t, HasLongAmount raw := by
  obtain ⟨read, words, hread, -, -⟩ := ofText_eq_none_iff.mp h
  have hclean : Faultless [] (Text.lines s) :=
    (Behind.start.readLines_spec (Text.lines s)).1 (congrArg Prod.snd hread)
  obtain ⟨raw, hmem, hlong⟩ := (ofText_eq_some_iff.mp herror).hasLongAmount
  rw [hlines, List.mem_append] at hmem
  rcases hmem with hmem | hmem
  · obtain ⟨mid, below, hsplit⟩ := List.append_of_mem hmem
    exact absurd (.amountTooLong hlong) (hclean mid raw below hsplit _ _)
  · exact ⟨raw, hmem, hlong⟩

/-- What a text says of itself with another text behind it. -/
structure Conserved (s t : Text) : Prop where
  /-- A fault that the first pass finds is found again. -/
  fault : ∀ e, (Assembler.readLines {} 1 (Text.lines s)).2 = some e →
    assemble (.text s) = .error e ∧ assemble (.text (s ++ t)) = .error e
  /-- The words stay in front, and a label keeps its index. -/
  program : ∀ p p', assemble (.text s) = .ok p → assemble (.text (s ++ t)) = .ok p' →
    p.words <+: p'.words ∧
      ∀ label index, p.labels.lookup label = some index → p'.labels.lookup label = some index
  /-- A new error is one of the new lines, or there are too many statements now, or one of the
  new lines has an amount that is too long. -/
  error : ∀ p e, assemble (.text s) = .ok p → assemble (.text (s ++ t)) = .error e →
    e = .tooManyStatements ∨ (∃ problem number text, e = .line problem number text ∧
      (Text.lines s).length < number ∧
      number ≤ (Text.lines s).length + (Text.lines t).length) ∨
    (e = .amountTooLong ∧ ∃ raw ∈ Text.lines t, HasLongAmount raw)

/-- **More lines behind a program change nothing in front of them.** -/
theorem conserved_append (s t : Text) (hs : s = [] ∨ s.getLast? = some '\n') :
    Conserved s t := by
  have hlines := Text.lines_append hs t
  refine ⟨?_, ?_, ?_⟩
  · intro e he
    obtain ⟨hfirst, hboth⟩ := ofText_append_of_error hlines he
    exact ⟨assemble_text_eq_error_iff.mpr hfirst, assemble_text_eq_error_iff.mpr hboth⟩
  · intro p p' hp hp'
    obtain ⟨a, ha, rfl⟩ := assemble_text_eq_ok_iff.mp hp
    obtain ⟨a', ha', rfl⟩ := assemble_text_eq_ok_iff.mp hp'
    obtain ⟨hlabels, hwords⟩ := (ofText_append hlines ha).1 a' ha'
    exact ⟨hwords, hlabels⟩
  · intro p e hp he
    obtain ⟨a, ha, rfl⟩ := assemble_text_eq_ok_iff.mp hp
    have he := assemble_text_eq_error_iff.mp he
    cases (ofText_append hlines ha).2 e he with
    | tooManyStatements => exact .inl rfl
    | line hfirst hlast => exact .inr (.inl ⟨_, _, _, rfl, by omega, by omega⟩)
    | amountTooLong => exact .inr (.inr ⟨rfl, hasLongAmount_of_append hlines ha he⟩)

/-- A program that stands in front of a line with a fault. -/
theorem conserved_append_undefined :
    let s := "loop: jmp loop\r\n".toList
    let t := "jmp nowhere".toList
    s.getLast? = some '\n' ∧ Conserved s t ∧
      assemble (.text s) = .ok ⟨[0xc000], [("loop".toList, 0)]⟩ ∧
      assemble (.text (s ++ t)) =
        .error (.line (.undefinedLabel "nowhere".toList) 2 "jmp nowhere".toList) :=
  ⟨rfl, conserved_append _ _ (.inr rfl), by rfl, by rfl⟩

/-- A line behind the empty program with an error that names no line. -/
theorem append_nines :
    let t := Op.shiftL.mnemonic.toList ++ ' ' :: List.replicate 5001 '9'
    assemble (.text []) = .ok ⟨[], []⟩ ∧
      ∃ e, assemble (.text ([] ++ t)) = .error e ∧ e ≠ .tooManyStatements ∧
        ∀ problem number text, e ≠ .line problem number text := by
  intro t
  refine ⟨by rfl, .amountTooLong, ?_, nofun, nofun⟩
  rw [List.nil_append, assemble]
  exact assemble_replicate_nine (by decide) {}

end IttyBitty.Assembly
