import IttyBitty.Ibcmc.Lexer
import Mathlib.Data.List.TakeWhile

/-!
# The lexical grammar of IBCMC

Which texts are lexemes, said without a scanner: a lexeme is a run of
characters of some form that what follows does not go on with. Cutting a text
finds the lexeme it starts with whenever there is one, and says otherwise what
is wrong there.
-/

namespace IttyBitty.Ibcmc

/-! ## Lexemes -/

/-- The text does not start with a character of the class. -/
def Stops (p : Char → Bool) (rest : Text) : Prop := ∀ c ∈ rest.head?, p c = false

/-- The kinds of words that are no names. -/
def keywords : List Kind := [.kwConst, .kwInt, .kwVoid]

/-- The kinds of operators and punctuation. -/
def signs : List Kind :=
  [.plusAssign, .minusAssign, .plus, .minus, .assign, .semi, .comma, .leftParen, .rightParen,
    .leftBrace, .rightBrace]

/-- A run of digits that what follows does not go on with. -/
structure IsRun (digits rest : Text) : Prop where
  nonempty : digits ≠ []
  digits : ∀ c ∈ digits, Decimal.isDigit c = true
  longest : Stops Decimal.isDigit rest

/-- Some characters in front of a rest are a lexeme: a separator or a token of the
given kind and value. None could be longer. -/
inductive IsLexeme : Text → Text → Option (Kind × Value) → Prop
  | space {c : Char} {rest : Text} (hc : c ∈ [' ', '\t', '\r', '\n']) : IsLexeme [c] rest none
  | comment {body rest : Text} (hbody : '\n' ∉ body)
      (hend : rest = [] ∨ rest.head? = some '\n') : IsLexeme ('/' :: '/' :: body) rest none
  | literal {digits rest : Text} (hrun : IsRun digits rest) (hshort : digits.length ≤ 4300)
      (hfits : Decimal.number digits ≤ 65535) :
      IsLexeme digits rest (some (.intLiteral, .number (Decimal.number digits)))
  | keyword {kind : Kind} {rest : Text} (hkind : kind ∈ keywords)
      (hend : Stops isNameChar rest) :
      IsLexeme kind.spelling.toList rest (some (kind, .text kind.spelling.toList))
  | name {c : Char} {others rest : Text} (hc : isLetter c = true)
      (hothers : ∀ d ∈ others, isNameChar d = true) (hend : Stops isNameChar rest)
      (hname : ∀ kind ∈ keywords, c :: others ≠ kind.spelling.toList) :
      IsLexeme (c :: others) rest (some (.ident, .text (c :: others)))
  | sign {kind : Kind} {rest : Text} (hkind : kind ∈ signs)
      (hend : kind ∈ [.plus, .minus] → rest.head? ≠ some '=') :
      IsLexeme kind.spelling.toList rest (some (kind, .text kind.spelling.toList))

/-- What is wrong with a run of digits. One that is too long is so whatever its value. -/
inductive BadLiteral (digits : Text) : LiteralFault → Prop
  | tooLong (hlong : 4300 < digits.length) : BadLiteral digits .tooLong
  | tooLarge (hshort : digits.length ≤ 4300) (hlarge : 65535 < Decimal.number digits) :
      BadLiteral digits .tooLarge

/-- What is wrong at the start of a text: a run of digits that is no literal, or a
character that no lexeme starts with. -/
inductive Offends (place : Position) : Text → LexError → Prop
  | literal {digits rest : Text} {fault : LiteralFault} (hrun : IsRun digits rest)
      (hbad : BadLiteral digits fault) :
      Offends place (digits ++ rest) (.badLiteral fault digits place)
  | character {c : Char} {rest : Text} (hdigit : Decimal.isDigit c = false)
      (hstart : ∀ chars rest' found, chars ++ rest' = c :: rest →
        ¬ IsLexeme chars rest' found) :
      Offends place (c :: rest) (.unknownCharacter c place)

/-! ## Classes of characters -/

theorem isSpace_iff {c : Char} : isSpace c = true ↔ c ∈ [' ', '\t', '\r', '\n'] := by
  simp [isSpace, or_assoc]

theorem isDigit_iff {c : Char} : Decimal.isDigit c = true ↔ 48 ≤ c.toNat ∧ c.toNat ≤ 57 := by
  rw [Decimal.isDigit, Bool.and_eq_true, decide_eq_true_eq, decide_eq_true_eq]
  rfl

theorem isLetter_iff {c : Char} :
    isLetter c = true ↔ 97 ≤ c.toNat ∧ c.toNat ≤ 122 ∨ 65 ≤ c.toNat ∧ c.toNat ≤ 90 := by
  simp only [isLetter, Bool.or_eq_true, Bool.and_eq_true, decide_eq_true_eq]
  rfl

/-- A digit or a letter is neither a space nor a slash. -/
theorem not_isSpace_of_isNameChar {c : Char} (h : isNameChar c = true) :
    isSpace c = false ∧ c ≠ '/' := by
  constructor
  · rw [Bool.eq_false_iff]
    intro hspace
    rw [isSpace_iff] at hspace
    simp only [List.mem_cons, List.not_mem_nil, or_false] at hspace
    rcases hspace with rfl | rfl | rfl | rfl <;> exact absurd h (by decide)
  · rintro rfl
    exact absurd h (by decide)

theorem not_isDigit_of_isLetter {c : Char} (h : isLetter c = true) :
    Decimal.isDigit c = false := by
  rw [Bool.eq_false_iff]
  intro hdigit
  rw [isLetter_iff] at h
  rw [isDigit_iff] at hdigit
  omega

/-! ## Runs -/

theorem takeWhile_of_stops {p : Char → Bool} {chars rest : Text}
    (hchars : ∀ c ∈ chars, p c = true) (hend : Stops p rest) :
    (chars ++ rest).takeWhile p = chars ∧ (chars ++ rest).dropWhile p = rest := by
  rw [List.takeWhile_append_of_pos hchars, List.dropWhile_append_of_pos hchars]
  cases rest with
  | nil => simp
  | cons c rest => simp [hend c rfl]

theorem stops_dropWhile (p : Char → Bool) (t : Text) : Stops p (t.dropWhile p) := by
  intro c hc
  have hhead := List.head?_dropWhile_not p t
  rw [Option.mem_def] at hc
  rw [hc] at hhead
  simpa using hhead

/-- Digits alone are a run. -/
theorem isRun_nil {digits : Text} (hne : digits ≠ [])
    (hdigits : ∀ c ∈ digits, Decimal.isDigit c = true) : IsRun digits [] :=
  ⟨hne, hdigits, nofun⟩

theorem isRun_takeWhile {c : Char} (hc : Decimal.isDigit c = true) (rest : Text) :
    IsRun (c :: rest.takeWhile Decimal.isDigit) (rest.dropWhile Decimal.isDigit) := by
  refine ⟨List.cons_ne_nil _ _, ?_, stops_dropWhile _ _⟩
  intro d hd
  rcases List.mem_cons.mp hd with rfl | hd
  · exact hc
  · exact List.mem_takeWhile_imp hd

/-! ## Cutting a text -/

/-- What a lexeme means to the scanner. -/
def Meaning.ofFound : Option (Kind × Value) → Meaning
  | none => .separator
  | some (kind, value) => .token kind value

/-- **The operator in front of a text** is the longer of two that start alike. -/
theorem operatorKind?_eq_some_iff {c : Char} {rest : Text} {kind : Kind} {chars rest' : Text} :
    operatorKind? c rest = some (kind, chars, rest') ↔
      kind ∈ signs ∧ chars = kind.spelling.toList ∧ chars ++ rest' = c :: rest ∧
        (kind ∈ [.plus, .minus] → rest'.head? ≠ some '=') := by
  constructor
  · intro h
    have hshort : ∀ {rest : Text}, (∀ tail, rest = '=' :: tail → False) →
        rest.head? ≠ some '=' := by
      intro rest hrest hhead
      obtain ⟨tail, htail⟩ := List.head?_eq_some_iff.mp hhead
      exact hrest tail htail
    unfold operatorKind? at h
    split at h <;> cases h
    case h_3 hlonger => exact ⟨by decide, rfl, rfl, fun _ => hshort hlonger⟩
    case h_4 hlonger => exact ⟨by decide, rfl, rfl, fun _ => hshort hlonger⟩
    all_goals exact ⟨by decide, rfl, rfl, fun hkind => absurd hkind (by decide)⟩
  · rintro ⟨hkind, rfl, htext, hend⟩
    cases kind <;> first | exact absurd hkind (by decide) | cases htext
    -- alone, the two short operators must not go on
    case plus.refl =>
      cases rest' with
      | nil => rfl
      | cons d tail =>
          have hd : d ≠ '=' := by simpa using hend (by decide)
          show operatorKind? '+' (d :: tail) = _
          simp [operatorKind?, hd]
          rfl
    case minus.refl =>
      cases rest' with
      | nil => rfl
      | cons d tail =>
          have hd : d ≠ '=' := by simpa using hend (by decide)
          show operatorKind? '-' (d :: tail) = _
          simp [operatorKind?, hd]
          rfl
    all_goals rfl

/-- No operator starts like any other lexeme. -/
theorem classes_of_sign {kind : Kind} (hkind : kind ∈ signs) {c : Char} {others : Text}
    (h : kind.spelling.toList = c :: others) :
    isSpace c = false ∧ c ≠ '/' ∧ Decimal.isDigit c = false ∧ isLetter c = false := by
  cases kind <;> first | exact absurd hkind (by decide) | (cases h; decide)

/-- A word is cut whole. -/
theorem lexeme_word {c : Char} {others rest : Text} (hc : isLetter c = true)
    (hothers : ∀ d ∈ others, isNameChar d = true) (hend : Stops isNameChar rest) :
    lexeme c (others ++ rest) =
      ⟨.token (wordKind (c :: others)) (.text (c :: others)), c :: others, rest⟩ := by
  obtain ⟨htake, hdrop⟩ := takeWhile_of_stops hothers hend
  obtain ⟨hspace, hslash⟩ := not_isSpace_of_isNameChar (c := c) (by simp [isNameChar, hc])
  simp [lexeme, hspace, hslash, not_isDigit_of_isLetter hc, hc, htake, hdrop]

theorem literalMeaning_of_fits {digits : Text} (hshort : digits.length ≤ 4300)
    (hfits : Decimal.number digits ≤ 65535) :
    literalMeaning digits = .token .intLiteral (.number (Decimal.number digits)) := by
  rw [literalMeaning, Decimal.number?_of_le hshort]
  exact if_pos hfits

theorem BadLiteral.literalMeaning_eq {digits : Text} {fault : LiteralFault}
    (h : BadLiteral digits fault) : literalMeaning digits = .badLiteral fault := by
  cases h with
  | tooLong hlong => rw [literalMeaning, Decimal.number?_of_lt hlong]
  | tooLarge hshort hlarge =>
      rw [literalMeaning, Decimal.number?_of_le hshort]
      exact if_neg (Nat.not_le_of_lt hlarge)

/-- A run of digits that does not fit is bad in one of two ways. -/
theorem fits_or_bad (digits : Text) :
    (digits.length ≤ 4300 ∧ Decimal.number digits ≤ 65535) ∨ ∃ fault, BadLiteral digits fault := by
  by_cases hlong : 4300 < digits.length
  · exact .inr ⟨_, .tooLong hlong⟩
  by_cases hlarge : 65535 < Decimal.number digits
  · exact .inr ⟨_, .tooLarge (Nat.le_of_not_lt hlong) hlarge⟩
  · exact .inl ⟨Nat.le_of_not_lt hlong, Nat.le_of_not_lt hlarge⟩

/-- A run of digits is cut whole. -/
theorem lexeme_run {c : Char} {others rest : Text} (hrun : IsRun (c :: others) rest) :
    lexeme c (others ++ rest) = ⟨literalMeaning (c :: others), c :: others, rest⟩ := by
  obtain ⟨hc, hothers⟩ := List.forall_mem_cons.mp hrun.digits
  obtain ⟨htake, hdrop⟩ := takeWhile_of_stops hothers hrun.longest
  obtain ⟨hspace, hslash⟩ := not_isSpace_of_isNameChar (c := c) (by simp [isNameChar, hc])
  simp [lexeme, hspace, hslash, hc, htake, hdrop]

/-- **Cutting finds the lexeme** that a text starts with. -/
theorem lexeme_of_isLexeme {c : Char} {others rest : Text} {found : Option (Kind × Value)}
    (h : IsLexeme (c :: others) rest found) :
    lexeme c (others ++ rest) = ⟨.ofFound found, c :: others, rest⟩ := by
  generalize hchars : c :: others = chars at h
  cases h with
  | space hc =>
      cases hchars
      simp [lexeme, isSpace_iff.mpr hc, Meaning.ofFound]
  | @comment body _ hbody hend =>
      cases hchars
      have hstops : Stops (· != '\n') rest := by
        rcases hend with rfl | hend
        · exact nofun
        · rintro d hd
          rw [hend] at hd
          cases hd
          rfl
      have hchars : ∀ d ∈ body, (d != '\n') = true := by
        intro d hd
        rw [bne_iff_ne]
        rintro rfl
        exact hbody hd
      obtain ⟨htake, hdrop⟩ := takeWhile_of_stops hchars hstops
      have hspace : isSpace '/' = false := rfl
      simp [lexeme, hspace, htake, hdrop, Meaning.ofFound]
  | literal hrun hshort hfits =>
      subst hchars
      rw [lexeme_run hrun, literalMeaning_of_fits hshort hfits]
      rfl
  | @keyword kind _ hkind hend =>
      cases kind <;> first | exact absurd hkind (by decide) | cases hchars
      all_goals exact lexeme_word (by decide) (List.all_eq_true.mp (by decide)) hend
  | name hc hothers hend hname =>
      cases hchars
      have hkind : wordKind (c :: others) = .ident := by
        rw [wordKind, if_neg (hname .kwConst (by decide)), if_neg (hname .kwInt (by decide)),
          if_neg (hname .kwVoid (by decide))]
      rw [lexeme_word hc hothers hend, hkind]
      rfl
  | @sign kind _ hkind hend =>
      obtain ⟨hspace, hslash, hdigit, hletter⟩ := classes_of_sign hkind hchars.symm
      have hoperator : operatorKind? c (others ++ rest) =
          some (kind, kind.spelling.toList, rest) :=
        operatorKind?_eq_some_iff.mpr ⟨hkind, rfl, by rw [← hchars]; rfl, hend⟩
      simp [lexeme, hspace, hslash, hdigit, hletter, hoperator, Meaning.ofFound]

/-- What cutting a text that is not empty turns up. -/
inductive Cuts (c : Char) (rest : Text) : Lexeme → Prop
  | found {chars rest' : Text} {found : Option (Kind × Value)}
      (htext : chars ++ rest' = c :: rest) (h : IsLexeme chars rest' found) :
      Cuts c rest ⟨.ofFound found, chars, rest'⟩
  | badLiteral {digits rest' : Text} {fault : LiteralFault} (htext : digits ++ rest' = c :: rest)
      (hrun : IsRun digits rest') (hbad : BadLiteral digits fault) :
      Cuts c rest ⟨.badLiteral fault, digits, rest'⟩
  | unknown (hdigit : Decimal.isDigit c = false)
      (hstart : ∀ chars rest' found, chars ++ rest' = c :: rest →
        ¬ IsLexeme chars rest' found) :
      Cuts c rest ⟨.unknown, [c], rest⟩

theorem IsLexeme.ne_nil {chars rest : Text} {found : Option (Kind × Value)}
    (h : IsLexeme chars rest found) : chars ≠ [] := by
  cases h with
  | literal hrun => exact hrun.nonempty
  | @keyword kind _ hkind hend => cases kind <;> first | exact absurd hkind (by decide) | decide
  | @sign kind _ hkind hend => cases kind <;> first | exact absurd hkind (by decide) | decide
  | _ => exact List.cons_ne_nil _ _

theorem cuts_word {c : Char} (hc : isLetter c = true) (rest : Text) :
    Cuts c rest (lexeme c rest) := by
  have hothers : ∀ d ∈ rest.takeWhile isNameChar, isNameChar d = true :=
    fun d hd => List.mem_takeWhile_imp hd
  have hend := stops_dropWhile isNameChar rest
  have htext := List.takeWhile_append_dropWhile (p := isNameChar) (l := rest)
  generalize rest.takeWhile isNameChar = others at hothers htext
  generalize rest.dropWhile isNameChar = rest' at hend htext
  subst htext
  by_cases hname : ∀ kind ∈ keywords, c :: others ≠ kind.spelling.toList
  · have h := IsLexeme.name hc hothers hend hname
    rw [lexeme_of_isLexeme h]
    exact .found rfl h
  · simp only [not_forall, not_not] at hname
    obtain ⟨kind, hkind, hword⟩ := hname
    have h := IsLexeme.keyword hkind hend
    rw [← hword] at h
    rw [lexeme_of_isLexeme h]
    exact .found rfl h

theorem cuts_comment (tail : Text) : Cuts '/' ('/' :: tail) (lexeme '/' ('/' :: tail)) := by
  have hbody : '\n' ∉ tail.takeWhile (· != '\n') := by
    intro h
    have := List.mem_takeWhile_imp h
    simp at this
  have hend : tail.dropWhile (· != '\n') = [] ∨
      (tail.dropWhile (· != '\n')).head? = some '\n' := by
    have hstops := stops_dropWhile (· != '\n') tail
    cases hdrop : tail.dropWhile (· != '\n') with
    | nil => exact .inl rfl
    | cons d rest =>
        rw [hdrop] at hstops
        have hd := hstops d rfl
        rw [bne_eq_false_iff_eq] at hd
        exact .inr (by rw [hd]; rfl)
  have h := IsLexeme.comment hbody hend
  have hcut := lexeme_of_isLexeme h
  rw [List.cons_append, List.takeWhile_append_dropWhile] at hcut
  rw [hcut]
  exact .found (by simp) h

theorem cuts_number {c : Char} (hc : Decimal.isDigit c = true) (rest : Text) :
    Cuts c rest (lexeme c rest) := by
  have hrun := isRun_takeWhile hc rest
  have htext := List.takeWhile_append_dropWhile (p := Decimal.isDigit) (l := rest)
  generalize rest.takeWhile Decimal.isDigit = others at hrun htext
  generalize rest.dropWhile Decimal.isDigit = rest' at hrun htext
  subst htext
  rw [lexeme_run hrun]
  rcases fits_or_bad (c :: others) with ⟨hshort, hfits⟩ | ⟨fault, hbad⟩
  · rw [literalMeaning_of_fits hshort hfits]
    exact .found rfl (.literal hrun hshort hfits)
  · rw [hbad.literalMeaning_eq]
    exact .badLiteral rfl hrun hbad

/-- **Cutting a text** finds a lexeme or what is wrong. -/
theorem cuts_lexeme (c : Char) (rest : Text) : Cuts c rest (lexeme c rest) := by
  by_cases hspace : isSpace c = true
  · have h : IsLexeme [c] rest none := .space (isSpace_iff.mp hspace)
    rw [show lexeme c rest = _ from lexeme_of_isLexeme h]
    exact .found rfl h
  by_cases hslash : c = '/' ∧ rest.head? = some '/'
  · obtain ⟨rfl, hhead⟩ := hslash
    obtain ⟨tail, rfl⟩ := List.head?_eq_some_iff.mp hhead
    exact cuts_comment tail
  by_cases hdigit : Decimal.isDigit c = true
  · exact cuts_number hdigit rest
  by_cases hletter : isLetter c = true
  · exact cuts_word hletter rest
  -- only an operator is left
  cases hoperator : operatorKind? c rest with
  | some sign =>
      obtain ⟨kind, chars, rest'⟩ := sign
      obtain ⟨hkind, rfl, htext, hend⟩ := operatorKind?_eq_some_iff.mp hoperator
      have hcut : lexeme c rest =
          ⟨.token kind (.text kind.spelling.toList), kind.spelling.toList, rest'⟩ := by
        simp [lexeme, hspace, hslash, hdigit, hletter, hoperator]
      rw [hcut]
      exact .found htext (.sign hkind hend)
  | none =>
      have hcut : lexeme c rest = ⟨.unknown, [c], rest⟩ := by
        simp [lexeme, hspace, hslash, hdigit, hletter, hoperator]
      rw [hcut]
      refine .unknown (Bool.eq_false_iff.mpr hdigit) ?_
      intro chars rest' found htext h
      -- the lexeme would have been found
      obtain ⟨d, others, rfl⟩ := List.exists_cons_of_ne_nil h.ne_nil
      obtain ⟨rfl, rfl⟩ := List.cons.inj htext
      have hfound := lexeme_of_isLexeme h
      rw [List.append_eq] at hcut
      rw [hcut] at hfound
      rcases found with _ | ⟨kind, value⟩ <;> cases hfound

/-- A character that no lexeme starts with is cut off alone. -/
theorem lexeme_of_no_start {c : Char} {rest : Text} (hdigit : Decimal.isDigit c = false)
    (hstart : ∀ chars rest' found, chars ++ rest' = c :: rest → ¬ IsLexeme chars rest' found) :
    lexeme c rest = ⟨.unknown, [c], rest⟩ := by
  have hcuts := cuts_lexeme c rest
  generalize lexeme c rest = cut at hcuts
  cases hcuts with
  | found htext h => exact absurd h (hstart _ _ _ htext)
  | @badLiteral digits rest' fault htext hrun hbad =>
      obtain ⟨d, others, rfl⟩ := List.exists_cons_of_ne_nil hrun.nonempty
      obtain ⟨rfl, -⟩ := List.cons.inj htext
      rw [hrun.digits d (List.mem_cons_self ..)] at hdigit
      cases hdigit
  | unknown => rfl

end IttyBitty.Ibcmc
