import IttyBitty.Proofs.Assembly.Spacing

/-!
# Shift amounts that are too long

A shift amount with more digits than are read is refused whatever its value, zeros in front
included. The assembler has no words for it: the error names neither the line nor what is
wrong with it (`assemble_longAmount`).
-/

namespace IttyBitty.Assembly

/-- A line asks for a shift by a run of digits that is too long to be read. -/
def HasLongAmount (raw : Text) : Prop :=
  ∃ (op : Op) (digits : Text) (others : List Text), op.mode = .shift ∧
    statementOf raw = op.mnemonic.toList :: digits :: others ∧
    (∀ c ∈ digits, '0' ≤ c ∧ c ≤ '9') ∧ 4300 < digits.length

/-! ## A line with an operation and an operand -/

/-- What holds no slash holds no comment. -/
theorem beforeComment_eq_self {t : Text} (h : '/' ∉ t) : beforeComment t = t := by
  induction t with
  | nil => rfl
  | cons c rest ih =>
      rw [List.mem_cons, not_or] at h
      rw [beforeComment_cons, if_neg fun hslashes => h.1 hslashes.1.symm, ih h.2]

/-- A word without a slash is a token. -/
theorem tokens_word {word : Text} (hne : word ≠ []) (hvisible : ∀ c ∈ word, isBlank c = false)
    (hslash : '/' ∉ word) : tokens word = [word] := by
  rw [tokens, beforeComment_eq_self hslash, ← Text.words_eq_filter_splitOnP,
    Text.words_of_visible hne hvisible]

theorem isBlank_of_between {c : Char} (hlow : 48 ≤ c.toNat) (hhigh : c.toNat ≤ 122) :
    isBlank c = false := by
  simp only [isBlank, Bool.or_eq_false_iff, Bool.and_eq_false_iff, decide_eq_false_iff_not,
    beq_eq_false_iff_ne]
  omega

theorem digit_visible {c : Char} (h : '0' ≤ c ∧ c ≤ '9') : isBlank c = false :=
  isBlank_of_between h.1 (Nat.le_trans h.2 (by decide : 57 ≤ 122))

/-- The names of operations are of letters. -/
theorem mnemonic_letters (op : Op) : ∀ c ∈ op.mnemonic.toList, 65 ≤ c.toNat ∧ c.toNat ≤ 122 := by
  have hall : op.mnemonic.toList.all (fun c => 65 ≤ c.toNat && c.toNat ≤ 122) = true := by
    cases op <;> rfl
  simpa using hall

theorem mnemonic_visible (op : Op) : ∀ c ∈ op.mnemonic.toList, isBlank c = false := by
  intro c hc
  obtain ⟨hlow, hhigh⟩ := mnemonic_letters op c hc
  exact isBlank_of_between (by omega) hhigh

theorem mnemonic_ne_nil (op : Op) : op.mnemonic.toList ≠ [] := by
  cases op <;> nofun

variable {op : Op} {digits : Text}

/-- A character that is no digit is not among digits. -/
theorem not_mem_of_digits (h : ∀ c ∈ digits, '0' ≤ c ∧ c ≤ '9') {c : Char}
    (hc : ¬ ('0' ≤ c ∧ c ≤ '9')) : c ∉ digits := fun hmem => hc (h c hmem)

/-- The parts of a line with the name of an operation and some digits. -/
theorem parts_shift (h : ∀ c ∈ digits, '0' ≤ c ∧ c ≤ '9') (hne : digits ≠ []) :
    labelOf (op.mnemonic.toList ++ ' ' :: digits) = none ∧
      statementOf (op.mnemonic.toList ++ ' ' :: digits) = [op.mnemonic.toList, digits] := by
  have hname {c : Char} (hc : ¬ (65 ≤ c.toNat ∧ c.toNat ≤ 122)) : c ∉ op.mnemonic.toList :=
    fun hmem => hc (mnemonic_letters op c hmem)
  have hslash : '/' ∉ op.mnemonic.toList := hname (by decide)
  have hcolon : ':' ∉ op.mnemonic.toList := hname (by decide)
  have htokens : tokens (op.mnemonic.toList ++ ' ' :: digits) = [op.mnemonic.toList, digits] := by
    rw [tokens_append (by decide), if_pos (beforeComment_eq_self hslash),
      tokens_word (mnemonic_ne_nil op) (mnemonic_visible op) hslash,
      tokens_word hne (fun c hc => digit_visible (h c hc)) (not_mem_of_digits h (by decide))]
    rfl
  rw [labelOf, statementOf, htokens]
  exact ⟨if_neg hcolon, if_neg hcolon⟩

/-- The line is all of its text. -/
theorem lines_shift (h : ∀ c ∈ digits, '0' ≤ c ∧ c ≤ '9') :
    Text.lines (op.mnemonic.toList ++ ' ' :: digits) = [op.mnemonic.toList ++ ' ' :: digits] := by
  -- the only blank is the space
  have hblank : ∀ c ∈ op.mnemonic.toList ++ ' ' :: digits, isBlank c = true → c = ' ' := by
    intro c hc hblank
    rcases List.mem_append.mp hc with hc | hc
    · exact absurd hblank (by simp [mnemonic_visible op c hc])
    · rcases List.mem_cons.mp hc with hc | hc
      · exact hc
      · exact absurd hblank (by simp [digit_visible (h c hc)])
  refine Text.IsLine.lines_eq ⟨fun hfeed => ?_, fun hreturn => ?_⟩ (by simp)
  · exact absurd (hblank _ hfeed rfl) (by decide)
  · exact absurd (hblank _ (List.mem_of_getLast? hreturn) rfl) (by decide)

/-- **A shift by an amount that is too long** is refused, whatever it amounts to and whatever
has been assembled before. -/
theorem assemble_longAmount (hmode : op.mode = .shift) (h : ∀ c ∈ digits, '0' ≤ c ∧ c ≤ '9')
    (hlong : 4300 < digits.length) (assembler : Assembler) :
    (assembler.assemble (.text (op.mnemonic.toList ++ ' ' :: digits))).2 =
      .error .amountTooLong := by
  have hne : digits ≠ [] := List.ne_nil_of_length_pos (Nat.zero_lt_of_lt hlong)
  obtain ⟨hlabel, hstatement⟩ :
      labelOf (op.mnemonic.toList ++ ' ' :: digits) = none ∧
        statementOf (op.mnemonic.toList ++ ' ' :: digits) = [op.mnemonic.toList, digits] :=
    parts_shift h hne
  have hbody : Body.ofTokens op.mnemonic.toList [digits] = .error .amountTooLong := by
    simp only [Body.ofTokens, List.head?_cons, if_neg (mnemonic_ne_dataDirective op),
      Op.ofMnemonic?_mnemonic, Body.ofOp, hmode, shiftAmount_digits hne h, if_pos hlong,
      Except.map]
  have hread : (Assembler.readLines {} 1 [op.mnemonic.toList ++ ' ' :: digits]).2 =
      some .amountTooLong := by
    simp [Assembler.readLines, Assembler.readLine, parse?_eq, hlabel, hstatement,
      Assembler.bindLabel, Assembler.readTokens, hbody, maxStatements, Error.ofProblem]
  rw [Assembler.assemble, Source.decode]
  dsimp only
  rw [Assembler.ofText, lines_shift h]
  rcases hpass : Assembler.readLines {} 1 [op.mnemonic.toList ++ ' ' :: digits] with ⟨a, _ | e⟩
  · rw [hpass] at hread
    cases hread
  · rw [hpass] at hread
    cases hread
    rfl

/-- Nines, as many as are too long. -/
theorem assemble_replicate_nine {n : Nat} (hn : 4300 < n) (assembler : Assembler) :
    (assembler.assemble
      (.text (Op.shiftL.mnemonic.toList ++ ' ' :: List.replicate n '9'))).2 =
        .error .amountTooLong :=
  assemble_longAmount rfl (List.forall_mem_replicate.mpr (.inr (by decide)))
    (by rwa [List.length_replicate]) assembler

end IttyBitty.Assembly
