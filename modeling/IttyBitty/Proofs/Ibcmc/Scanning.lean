import IttyBitty.Proofs.Ibcmc.Lexemes

/-!
# Texts as sequences of lexemes

Reading a text from its beginning leads from lexeme to lexeme. The tokens of a
text are those that start on the way to its end, each with its place; a text
that does not lead to its end has no tokens, and the error is about the place
where it leads no further. Places are counted in the text itself: lines by
line feeds, columns from the last of them.
-/

namespace IttyBitty.Ibcmc

/-! ## Places -/

/-- The place behind some text. -/
def placeBehind (before : Text) : Position where
  offset := before.length
  line := 1 + before.count '\n'
  column := 1 + (before.reverse.takeWhile (· != '\n')).length

theorem after_placeBehind (before : Text) (c : Char) :
    (placeBehind before).after c = placeBehind (before ++ [c]) := by
  by_cases hc : c = '\n'
  · simp [placeBehind, Position.after, hc, Nat.add_assoc]
  · have hcount : (before ++ [c]).count '\n' = before.count '\n' := by
      rw [List.count_append, List.count_singleton, if_neg (by simpa using hc), Nat.add_zero]
    simp [placeBehind, Position.after, hc, hcount, Nat.add_comm]

/-- **Places are counted right**, character by character. -/
theorem afterText_placeBehind (before chars : Text) :
    (placeBehind before).afterText chars = placeBehind (before ++ chars) := by
  induction chars generalizing before with
  | nil => simp [Position.afterText]
  | cons c chars ih =>
      have hstep : (placeBehind before).afterText (c :: chars) =
          ((placeBehind before).after c).afterText chars := rfl
      rw [hstep, after_placeBehind, ih, List.append_assoc, List.singleton_append]

/-! ## Scanning -/

/-- The token that starts behind some text. -/
def tokenBehind (before : Text) (kind : Kind) (value : Value) : Token :=
  ⟨kind, value, (placeBehind before).line, (placeBehind before).column⟩

/-- What stands before a place of a text falls apart into lexemes, and the tokens
among them are the given ones. -/
inductive Scans (t : Text) : (before rest : Text) → List Token → Prop
  | start : Scans t [] t []
  | separator {before chars rest : Text} {tokens : List Token}
      (h : Scans t before (chars ++ rest) tokens) (hlexeme : IsLexeme chars rest none) :
      Scans t (before ++ chars) rest tokens
  | token {before chars rest : Text} {tokens : List Token} {kind : Kind} {value : Value}
      (h : Scans t before (chars ++ rest) tokens)
      (hlexeme : IsLexeme chars rest (some (kind, value))) :
      Scans t (before ++ chars) rest (tokens ++ [tokenBehind before kind value])

variable {t before rest : Text} {tokens : List Token}

theorem Scans.append_eq (h : Scans t before rest tokens) : before ++ rest = t := by
  induction h with
  | start => rfl
  | separator h hlexeme ih => rw [List.append_assoc, ih]
  | token h hlexeme ih => rw [List.append_assoc, ih]

/-- The lexer at a place of a text. -/
def lexerBehind (before rest : Text) : Lexer := ⟨rest, placeBehind before⟩

/-- A lexeme is passed in one step. -/
theorem tokensFrom_lexeme {chars : Text} {found : Option (Kind × Value)}
    (h : IsLexeme chars rest found) (done : List Token) {limit : Nat}
    (hlimit : (chars ++ rest).length ≤ limit) :
    ∃ limit', rest.length ≤ limit' ∧
      Lexer.tokensFrom done limit (lexerBehind before (chars ++ rest)) =
        Lexer.tokensFrom
          ((found.map fun word => tokenBehind before word.1 word.2).toList ++ done) limit'
          (lexerBehind (before ++ chars) rest) := by
  obtain ⟨c, others, rfl⟩ := List.exists_cons_of_ne_nil h.ne_nil
  cases limit with
  | zero => simp at hlimit
  | succ limit =>
      refine ⟨limit, by simp at hlimit; omega, ?_⟩
      rw [lexerBehind, List.cons_append, Lexer.tokensFrom]
      simp only [lexeme_of_isLexeme h, afterText_placeBehind]
      rcases found with _ | ⟨kind, value⟩ <;> rfl

/-- The lexer stops behind a literal that is too large or too long. -/
theorem tokensFrom_badLiteral {done : List Token} {digits : Text} {fault : LiteralFault}
    (hrun : IsRun digits rest) (hbad : BadLiteral digits fault) {limit : Nat}
    (hlimit : (digits ++ rest).length ≤ limit) :
    Lexer.tokensFrom done limit (lexerBehind before (digits ++ rest)) =
      ⟨lexerBehind (before ++ digits) rest, done.reverse,
        some (.badLiteral fault digits (placeBehind before))⟩ := by
  obtain ⟨c, others, rfl⟩ := List.exists_cons_of_ne_nil hrun.nonempty
  cases limit with
  | zero => simp at hlimit
  | succ limit =>
      rw [lexerBehind, List.cons_append, Lexer.tokensFrom]
      simp only [lexeme_run hrun, hbad.literalMeaning_eq, afterText_placeBehind]
      rfl

/-- The lexer stops in front of an unknown character. -/
theorem tokensFrom_unknown {done : List Token} {c : Char}
    (h : Offends (placeBehind before) rest (.unknownCharacter c (placeBehind before)))
    {limit : Nat} (hlimit : rest.length ≤ limit) :
    Lexer.tokensFrom done limit (lexerBehind before rest) =
      ⟨lexerBehind before rest, done.reverse,
        some (.unknownCharacter c (placeBehind before))⟩ := by
  cases h with
  | @character c rest hdigit hstart =>
      cases limit with
      | zero => simp at hlimit
      | succ limit =>
          rw [lexerBehind, Lexer.tokensFrom]
          simp only [lexeme_of_no_start hdigit hstart]

/-- The lexer comes through every place that a scan leads to. -/
theorem Scans.tokensFrom_eq (h : Scans t before rest tokens) :
    ∃ limit, rest.length ≤ limit ∧
      Lexer.tokenize { rest := t } =
        Lexer.tokensFrom tokens.reverse limit (lexerBehind before rest) := by
  induction h with
  | start => exact ⟨t.length, Nat.le_refl _, rfl⟩
  | separator _ hlexeme ih =>
      obtain ⟨limit, hlimit, hrun⟩ := ih
      obtain ⟨limit', hlimit', hstep⟩ := tokensFrom_lexeme hlexeme _ hlimit
      exact ⟨limit', hlimit', hrun.trans hstep⟩
  | token _ hlexeme ih =>
      obtain ⟨limit, hlimit, hrun⟩ := ih
      obtain ⟨limit', hlimit', hstep⟩ := tokensFrom_lexeme hlexeme _ hlimit
      refine ⟨limit', hlimit', ?_⟩
      rw [hrun, hstep, List.reverse_append]
      rfl

/-- The token that marks the end of a text. -/
def endToken (t : Text) : Token := tokenBehind t .endOfInput (.text [])

theorem tokensFrom_nil (done : List Token) (limit : Nat) :
    Lexer.tokensFrom done limit (lexerBehind t []) =
      ⟨lexerBehind t [], (endToken t :: done).reverse, none⟩ := by
  cases limit <;> rfl

/-- A scan to the end gives the tokens. -/
theorem Scans.tokenize_eq_ok (h : Scans t t [] tokens) :
    tokenize t = .ok (tokens ++ [endToken t]) := by
  obtain ⟨limit, -, hrun⟩ := h.tokensFrom_eq
  rw [tokenize, hrun, tokensFrom_nil]
  simp

/-- A scan to a place that offends gives the error. -/
theorem Scans.tokenize_eq_error {e : LexError} (h : Scans t before rest tokens)
    (he : Offends (placeBehind before) rest e) : tokenize t = .error e := by
  obtain ⟨limit, hlimit, hrun⟩ := h.tokensFrom_eq
  rw [tokenize, hrun]
  cases he with
  | literal hdigits hbad => rw [tokensFrom_badLiteral hdigits hbad hlimit]
  | character hdigit hstart => rw [tokensFrom_unknown (.character hdigit hstart) hlimit]

/-- Every text scans to its end or to a place that offends. -/
theorem Scans.exists_last (h : Scans t before rest tokens) :
    ∃ before rest tokens, Scans t before rest tokens ∧
      (rest = [] ∨ ∃ e, Offends (placeBehind before) rest e) := by
  -- every lexeme leaves less of the text
  induction hlength : rest.length using Nat.strong_induction_on
    generalizing before rest tokens with
  | _ n ih =>
    subst hlength
    cases rest with
    | nil => exact ⟨_, _, _, h, .inl rfl⟩
    | cons c rest =>
        have hcuts := cuts_lexeme c rest
        generalize lexeme c rest = cut at hcuts
        cases hcuts with
        | @found chars rest' found htext hlexeme =>
            have hshorter : rest'.length < (c :: rest).length := by
              have hchars := List.length_pos_iff.mpr hlexeme.ne_nil
              rw [← htext, List.length_append]
              omega
            rw [← htext] at h
            rcases found with _ | ⟨kind, value⟩
            · exact ih _ hshorter (h.separator hlexeme) rfl
            · exact ih _ hshorter (h.token hlexeme) rfl
        | @badLiteral digits rest' fault htext hrun hbad =>
            rw [← htext] at h
            exact ⟨_, _, _, h, .inr ⟨_, .literal hrun hbad⟩⟩
        | unknown hdigit hstart =>
            exact ⟨_, _, _, h, .inr ⟨_, .character hdigit hstart⟩⟩

/-- The tokens of a text are those that a scan finds, and the mark of its end. -/
theorem exists_scans_of_tokenize (h : tokenize t = .ok tokens) :
    ∃ found, Scans t t [] found ∧ tokens = found ++ [endToken t] := by
  obtain ⟨before, rest, found, hscan, rfl | ⟨e, he⟩⟩ := (Scans.start (t := t)).exists_last
  · obtain rfl : before = t := by simpa using hscan.append_eq
    rw [hscan.tokenize_eq_ok] at h
    exact ⟨found, hscan, (Except.ok.inj h).symm⟩
  · rw [hscan.tokenize_eq_error he] at h
    cases h

/-- **A text is tokenized by longest match, with true places.** It has tokens
exactly if it falls apart into lexemes, and then they are the tokens among these
and the mark of its end. Otherwise the error is about the one place where a
lexeme ends and none starts. -/
theorem tokenize_longest_match (t : Text) :
    (∀ tokens, tokenize t = .ok tokens ↔
      ∃ found, Scans t t [] found ∧ tokens = found ++ [endToken t]) ∧
    (∀ e, tokenize t = .error e ↔
      ∃ before rest found, Scans t before rest found ∧
        Offends (placeBehind before) rest e) := by
  obtain ⟨before, rest, found, h, rfl | ⟨e, he⟩⟩ := (Scans.start (t := t)).exists_last
  · obtain rfl : before = t := by simpa using h.append_eq
    have hok := h.tokenize_eq_ok
    refine ⟨fun tokens => ⟨fun htokens => ?_, ?_⟩, fun e => ⟨fun he => ?_, ?_⟩⟩
    · rw [hok] at htokens
      exact ⟨found, h, (Except.ok.inj htokens).symm⟩
    · rintro ⟨found', h', rfl⟩
      exact h'.tokenize_eq_ok
    · rw [hok] at he
      cases he
    · rintro ⟨before', rest', found', h', he⟩
      exact h'.tokenize_eq_error he
  · have herror := h.tokenize_eq_error he
    refine ⟨fun tokens => ⟨fun htokens => ?_, ?_⟩, fun e' => ⟨fun he' => ?_, ?_⟩⟩
    · rw [herror] at htokens
      cases htokens
    · rintro ⟨found', h', rfl⟩
      exact h'.tokenize_eq_ok
    · rw [herror] at he'
      cases he'
      exact ⟨before, rest, found, h, he⟩
    · rintro ⟨before', rest', found', h', he'⟩
      exact h'.tokenize_eq_error he'

/-- A text of too many digits has no tokens, and an error that is neither a literal too large
for a word nor an unknown character. -/
theorem tokenize_nines :
    let t := List.replicate 5001 '9'
    (∀ tokens, tokenize t ≠ .ok tokens) ∧
      (∀ digits place, tokenize t ≠ .error (.badLiteral .tooLarge digits place)) ∧
      ∀ c place, tokenize t ≠ .error (.unknownCharacter c place) := by
  intro t
  have hlength : t.length = 5001 := List.length_replicate
  have hrun : IsRun t [] :=
    isRun_nil (List.ne_nil_of_length_pos (by omega))
      (List.forall_mem_replicate.mpr (.inr (by decide)))
  have hoffends : Offends (placeBehind []) (t ++ []) (.badLiteral .tooLong t (placeBehind [])) :=
    .literal hrun (.tooLong (by omega))
  rw [List.append_nil] at hoffends
  rw [Scans.start.tokenize_eq_error hoffends]
  exact ⟨nofun, nofun, nofun⟩

end IttyBitty.Ibcmc
