import IttyBitty.Proofs.Ibcmc.Limits
import IttyBitty.Proofs.Ibcmc.Places

/-!
# Layout says nothing

What a text says is the sequence of the kinds and values of its tokens. Between
lexemes there may be any gap, of space characters and of comments with the line feeds
that end them: no gap goes on with a token, and a comment in front of one goes on at
most to its first line feed. So a text that is spread out says what it said
(`Spread.says_same`), and since the parser does not look at places, it has the same tree
but for its lines, or the same complaint about the same token (`layout_irrelevant`).
-/

namespace IttyBitty.Ibcmc

/-! ## What a text says -/

/-- A token without its place. -/
def Token.said (t : Token) : Kind × Value := (t.kind, t.value)

/-- The text falls apart into lexemes, and the tokens among them have the given kinds
and values. -/
inductive Says : Text → List (Kind × Value) → Prop
  | nil : Says [] []
  | separator {chars rest : Text} {found : List (Kind × Value)}
      (hlexeme : IsLexeme chars rest none) (h : Says rest found) : Says (chars ++ rest) found
  | token {chars rest : Text} {word : Kind × Value} {found : List (Kind × Value)}
      (hlexeme : IsLexeme chars rest (some word)) (h : Says rest found) :
      Says (chars ++ rest) (word :: found)

/-- The lexeme at the start of a text is the only one there. -/
theorem IsLexeme.unique {chars chars' rest rest' : Text} {word word' : Option (Kind × Value)}
    (h : IsLexeme chars rest word) (h' : IsLexeme chars' rest' word')
    (htext : chars ++ rest = chars' ++ rest') : chars = chars' ∧ rest = rest' ∧ word = word' := by
  obtain ⟨c, others, rfl⟩ := List.exists_cons_of_ne_nil h.ne_nil
  obtain ⟨c', others', rfl⟩ := List.exists_cons_of_ne_nil h'.ne_nil
  obtain ⟨rfl, hothers⟩ := List.cons.inj htext
  have hcut := lexeme_of_isLexeme h
  rw [show others ++ rest = others' ++ rest' from hothers, lexeme_of_isLexeme h',
    Lexeme.mk.injEq] at hcut
  obtain ⟨hword, hchars, hrest⟩ := hcut
  refine ⟨hchars.symm, hrest.symm, ?_⟩
  rcases word with _ | ⟨kind, value⟩ <;> rcases word' with _ | ⟨kind', value'⟩ <;> cases hword <;>
    rfl

/-- What is said behind the first lexeme. -/
theorem Says.behind {chars rest : Text} {word : Option (Kind × Value)}
    {found : List (Kind × Value)} (hlexeme : IsLexeme chars rest word)
    (h : Says (chars ++ rest) found) :
    ∃ found', Says rest found' ∧ found = word.toList ++ found' := by
  generalize htext : chars ++ rest = t at h
  cases h with
  | nil => exact absurd (List.append_eq_nil_iff.mp htext).1 hlexeme.ne_nil
  | @separator chars' rest' found hlexeme' h =>
      obtain ⟨rfl, rfl, rfl⟩ := hlexeme.unique hlexeme' htext
      exact ⟨found, h, rfl⟩
  | @token chars' rest' word' found hlexeme' h =>
      obtain ⟨rfl, rfl, rfl⟩ := hlexeme.unique hlexeme' htext
      exact ⟨found, h, rfl⟩

/-- A scan ends with what is said from its place on. -/
theorem Scans.says_append {t before rest : Text} {tokens : List Token} {found : List (Kind × Value)}
    (h : Scans t before rest tokens) (hrest : Says rest found) :
    Says t (tokens.map Token.said ++ found) := by
  induction h generalizing found with
  | start => exact hrest
  | separator _ hlexeme ih => exact ih (.separator hlexeme hrest)
  | token _ hlexeme ih =>
      rw [List.map_append, List.append_assoc]
      exact ih (.token hlexeme hrest)

/-- What is said from a place on is found there. -/
theorem Says.scans {t before rest : Text} {tokens : List Token} {found : List (Kind × Value)}
    (hrest : Says rest found) (h : Scans t before rest tokens) :
    ∃ more, Scans t t [] (tokens ++ more) ∧ more.map Token.said = found := by
  induction hrest generalizing before tokens with
  | nil =>
      obtain rfl : before = t := by simpa using h.append_eq
      exact ⟨[], by rwa [List.append_nil], rfl⟩
  | separator hlexeme _ ih => exact ih (h.separator hlexeme)
  | token hlexeme _ ih =>
      obtain ⟨more, hmore, hsaid⟩ := ih (h.token hlexeme)
      rw [List.append_assoc] at hmore
      exact ⟨_, hmore, congrArg (List.cons _) hsaid⟩

/-- **The tokens of a text are what it says**, and the mark of its end. -/
theorem says_iff {t : Text} {found : List (Kind × Value)} :
    Says t found ↔ ∃ tokens, Scans t t [] tokens ∧ tokens.map Token.said = found := by
  constructor
  · intro h
    exact h.scans .start
  · rintro ⟨tokens, h, rfl⟩
    have hsaying := h.says_append .nil
    rwa [List.append_nil] at hsaying

/-! ## Gaps -/

/-- What may stand between tokens: space characters, and comments with the line feeds
that end them. -/
inductive IsGap : Text → Prop
  | nil : IsGap []
  | space {c : Char} {gap : Text} (hc : c ∈ [' ', '\t', '\r', '\n']) (h : IsGap gap) :
      IsGap (c :: gap)
  | comment {body gap : Text} (hbody : '\n' ∉ body) (h : IsGap gap) :
      IsGap ('/' :: '/' :: (body ++ '\n' :: gap))

/-- A gap says nothing. -/
theorem Says.behind_gap {gap rest : Text} {found : List (Kind × Value)} (hgap : IsGap gap)
    (h : Says rest found) : Says (gap ++ rest) found := by
  induction hgap with
  | nil => exact h
  | @space c gap hc _ ih =>
      show Says ([c] ++ (gap ++ rest)) found
      exact .separator (.space hc) ih
  | @comment body gap hbody _ ih =>
      have hfeed : IsLexeme ['\n'] (gap ++ rest) none := .space (by decide)
      have hcomment : IsLexeme ('/' :: '/' :: body) ('\n' :: (gap ++ rest)) none :=
        .comment hbody (.inr rfl)
      simpa using Says.separator hcomment (.separator hfeed ih)

/-- The characters that gaps start with. -/
def gapStarts : List Char := [' ', '\t', '\r', '\n', '/']

theorem head?_gap {gap rest : Text} (hgap : IsGap gap) :
    ∀ c ∈ (gap ++ rest).head?, c ∈ rest.head? ∨ c ∈ gapStarts := by
  intro c hc
  cases hgap with
  | nil => exact .inl hc
  | space hspace _ =>
      cases hc
      exact .inr (List.mem_append_left ['/'] hspace)
  | comment _ _ =>
      cases hc
      exact .inr (by decide)

theorem Stops.elsewhere {p : Char → Bool} {rest rest' : Text} (h : Stops p rest)
    (hp : gapStarts.any p = false)
    (hend : ∀ c ∈ rest'.head?, c ∈ rest.head? ∨ c ∈ gapStarts) : Stops p rest' := by
  intro c hc
  rcases hend c hc with hrest | hgap
  · exact h c hrest
  · exact eq_false_of_ne_true (List.any_eq_false.mp hp c hgap)

/-- **No gap goes on with a token.** -/
theorem IsLexeme.elsewhere {chars rest rest' : Text} {word : Kind × Value}
    (h : IsLexeme chars rest (some word))
    (hend : ∀ c ∈ rest'.head?, c ∈ rest.head? ∨ c ∈ gapStarts) :
    IsLexeme chars rest' (some word) := by
  cases h with
  | literal hrun hshort hfits =>
      exact .literal ⟨hrun.nonempty, hrun.digits, hrun.longest.elsewhere (by decide) hend⟩ hshort
        hfits
  | keyword hkind hstops => exact .keyword hkind (hstops.elsewhere (by decide) hend)
  | name hc hothers hstops hname =>
      exact .name hc hothers (hstops.elsewhere (by decide) hend) hname
  | sign hkind hstops =>
      refine .sign hkind fun hshort hequals => ?_
      rcases hend '=' hequals with hrest | hgap
      · exact hstops hshort hrest
      · exact absurd hgap (by decide)

/-- **A comment goes on at most to the first line feed**, and the rest of the gap in
which it is says nothing. -/
theorem IsGap.comment_behind {gap rest : Text} {found : List (Kind × Value)} (hgap : IsGap gap)
    (hend : rest = [] ∨ rest.head? = some '\n') (h : Says rest found) :
    ∃ body tail, gap ++ rest = body ++ tail ∧ '\n' ∉ body ∧
      (tail = [] ∨ tail.head? = some '\n') ∧ Says tail found := by
  induction hgap with
  | nil => exact ⟨[], rest, rfl, List.not_mem_nil, hend, h⟩
  | @space c gap hc hgap ih =>
      by_cases hfeed : c = '\n'
      · subst hfeed
        exact ⟨[], _, rfl, List.not_mem_nil, .inr rfl, h.behind_gap (.space hc hgap)⟩
      · obtain ⟨body, tail, htext, hbody, htail, hsaying⟩ := ih
        refine ⟨c :: body, tail, congrArg (List.cons c) htext, ?_, htail, hsaying⟩
        exact List.not_mem_cons_of_ne_of_not_mem (Ne.symm hfeed) hbody
  | @comment body gap hbody hgap _ =>
      refine ⟨'/' :: '/' :: body, '\n' :: (gap ++ rest), by simp, ?_, .inr rfl, ?_⟩
      · simpa using hbody
      · exact h.behind_gap (.space (by decide) hgap)

/-! ## Texts that are spread out -/

/-- The second text is the first with gaps behind its lexemes. -/
inductive Spread : Text → Text → Prop
  | nil : Spread [] []
  | lexeme {chars rest gap rest' : Text} {word : Option (Kind × Value)}
      (hlexeme : IsLexeme chars rest word) (hgap : IsGap gap) (h : Spread rest rest') :
      Spread (chars ++ rest) (chars ++ (gap ++ rest'))

theorem Spread.head?_eq {t t' : Text} (h : Spread t t') : t'.head? = t.head? := by
  cases h with
  | nil => rfl
  | lexeme hlexeme =>
      obtain ⟨c, others, rfl⟩ := List.exists_cons_of_ne_nil hlexeme.ne_nil
      rfl

/-- Without gaps a text is spread out as it is. -/
theorem Says.spread {t : Text} {found : List (Kind × Value)} (h : Says t found) : Spread t t := by
  induction h with
  | nil => exact .nil
  | separator hlexeme _ ih => exact .lexeme hlexeme .nil ih
  | token hlexeme _ ih => exact .lexeme hlexeme .nil ih

theorem Scans.spread {t before rest rest' : Text} {tokens : List Token}
    (h : Scans t before rest tokens) (hrest : Spread rest rest') : Spread t (before ++ rest') := by
  induction h generalizing rest' with
  | start => exact hrest
  | separator _ hlexeme ih =>
      rw [List.append_assoc]
      exact ih (.lexeme hlexeme .nil hrest)
  | token _ hlexeme ih =>
      rw [List.append_assoc]
      exact ih (.lexeme hlexeme .nil hrest)

/-- **A text that is spread out says the same.** -/
theorem Spread.says_same {t t' : Text} (h : Spread t t') {found : List (Kind × Value)}
    (hsaying : Says t found) : Says t' found := by
  induction h generalizing found with
  | nil => exact hsaying
  | @lexeme chars rest gap rest' word hlexeme hgap h ih =>
      obtain ⟨found, hrest, rfl⟩ := hsaying.behind hlexeme
      have hrest' := ih hrest
      have hhead := h.head?_eq
      cases word with
      | some word =>
          refine .token (hlexeme.elsewhere fun c hc => ?_) (hrest'.behind_gap hgap)
          rw [← hhead]
          exact head?_gap hgap c hc
      | none =>
          cases hlexeme with
          | space hc => exact .separator (.space hc) (hrest'.behind_gap hgap)
          | @comment body _ hbody hend =>
              have hend' : rest' = [] ∨ rest'.head? = some '\n' := by
                rw [← List.head?_eq_none_iff, hhead]
                exact hend.imp_left List.head?_eq_none_iff.mpr
              obtain ⟨more, tail, htext, hmore, htail, hsaying⟩ :=
                hgap.comment_behind hend' hrest'
              have hcomment : IsLexeme ('/' :: '/' :: (body ++ more)) tail none := by
                refine .comment (fun hfeed => ?_) htail
                exact (List.mem_append.mp hfeed).elim hbody hmore
              rw [htext]
              simpa using Says.separator hcomment hsaying

/-! ## Values written down -/

/-- A number is written with its decimal digits. -/
theorem chars_number (n : Nat) : (Value.number n).chars = Nat.toDigits 10 n := Nat.toList_repr

theorem isRun_toDigits (n : Nat) {rest : Text} (hend : Stops Decimal.isDigit rest) :
    IsRun (Nat.toDigits 10 n) rest where
  nonempty := Nat.toDigits_ne_nil
  digits c hc := by
    have hdigit := Nat.isDigit_of_mem_toDigits (by decide) (by decide) hc
    rwa [Char.isDigit] at hdigit
  longest := hend

/-- **The value of a token is a lexeme again**, in front of any gap. -/
theorem IsLexeme.respelled {chars rest rest' : Text} {word : Kind × Value}
    (h : IsLexeme chars rest (some word)) (hend : ∀ c ∈ rest'.head?, c ∈ gapStarts) :
    IsLexeme word.2.chars rest' (some word) := by
  have hmoved : IsLexeme chars rest' (some word) := h.elsewhere fun c hc => .inr (hend c hc)
  cases hmoved with
  | literal hrun _ hfits =>
      have hnumber : Decimal.number (Nat.toDigits 10 (Decimal.number chars)) =
          Decimal.number chars := Nat.ofDigitChars_ten_toDigits
      -- without zeros in front the numeral is short
      have hlength : (Nat.toDigits 10 (Decimal.number chars)).length ≤ 5 :=
        (Nat.length_toDigits_le_iff (by decide) (by decide)).mpr (by omega)
      have hlexeme := IsLexeme.literal (isRun_toDigits _ hrun.longest)
        (Nat.le_trans hlength (by decide)) (hnumber.symm ▸ hfits)
      rw [hnumber] at hlexeme
      rwa [chars_number]
  | keyword hkind hstops => exact .keyword hkind hstops
  | name hc hothers hstops hname => exact .name hc hothers hstops hname
  | sign hkind hstops => exact .sign hkind hstops

/-- A word that is said is some lexeme. -/
theorem Says.isLexeme {t : Text} {found : List (Kind × Value)} (h : Says t found) :
    ∀ word ∈ found, ∃ chars rest, IsLexeme chars rest (some word) := by
  induction h with
  | nil => exact fun _ h => absurd h List.not_mem_nil
  | separator _ _ ih => exact ih
  | token hlexeme _ ih => exact List.forall_mem_cons.mpr ⟨⟨_, _, hlexeme⟩, ih⟩

/-- Some values with a space between any two of them. -/
def spaced (values : List Value) : Text := [' '].intercalate (values.map Value.chars)

theorem spaced_cons_cons (v w : Value) (values : List Value) :
    spaced (v :: w :: values) = v.chars ++ ([' '] ++ spaced (w :: values)) := by
  simp [spaced, List.intercalate_cons_cons]

/-- Values with spaces between them say what they are the values of; so they do with
the value of the mark of the end behind them, which has no characters. -/
theorem says_spaced {found : List (Kind × Value)}
    (hfound : ∀ word ∈ found, ∃ chars rest, IsLexeme chars rest (some word)) :
    Says (spaced (found.map Prod.snd)) found ∧
      Says (spaced (found.map Prod.snd ++ [.text []])) found := by
  induction found with
  | nil => exact ⟨.nil, .nil⟩
  | cons word found ih =>
      obtain ⟨⟨chars, rest, hlexeme⟩, hothers⟩ := List.forall_mem_cons.mp hfound
      obtain ⟨hspaced, hmarked⟩ := ih hothers
      -- a space, and what is said behind it
      have hcons {t : Text} (h : Says t found) :
          Says (word.2.chars ++ ([' '] ++ t)) (word :: found) := by
        refine .token (hlexeme.respelled fun c hc => ?_) (.separator (.space (by decide)) h)
        cases hc
        decide
      constructor
      · cases found with
        | nil =>
            have hlast : IsLexeme word.2.chars [] (some word) := hlexeme.respelled nofun
            simpa [spaced] using Says.token hlast .nil
        | cons word' found =>
            rw [List.map_cons, List.map_cons, spaced_cons_cons]
            exact hcons hspaced
      · rw [List.map_cons, List.cons_append]
        cases found with
        | nil =>
            rw [List.map_nil, List.nil_append, spaced_cons_cons]
            exact hcons hmarked
        | cons word' found =>
            rw [List.map_cons, List.cons_append, spaced_cons_cons]
            exact hcons hmarked

/-! ## Trees -/

/-- A text with tokens that say the same has the same tree but for its lines, or the
same complaint about the token in the same place of the list. -/
theorem parse_alike {t t' : Text} {tokens tokens' : List Token} (h : Scans t t [] tokens)
    (h' : Scans t' t' [] tokens') (hsaid : tokens'.map Token.said = tokens.map Token.said) :
    (∃ b b', parse t = .ok b ∧ parse t' = .ok b' ∧
      b.mapLines (fun _ => 0) = b'.mapLines fun _ => 0) ∨
    ∃ c, ∃ k : Nat, ∃ token token', (tokens ++ [endToken t])[k]? = some token ∧
      (tokens' ++ [endToken t'])[k]? = some token' ∧ token.said = token'.said ∧
      parse t = .error (.grammatical (.complaint c token)) ∧
      parse t' = .error (.grammatical (.complaint c token')) := by
  let R (u u' : Token) : Prop := u.said = u'.said ∧
    ∃ k : Nat, (tokens ++ [endToken t])[k]? = some u ∧ (tokens' ++ [endToken t'])[k]? = some u'
  have hlength : tokens.length = tokens'.length := by
    simpa using (congrArg List.length hsaid).symm
  have hplaces : Parser.Places (fun _ => 0) (fun _ => 0) R := by
    rintro u u' ⟨hsaid, -⟩
    exact ⟨congrArg Prod.fst hsaid, congrArg Prod.snd hsaid, rfl⟩
  have hlast : R (endToken t) (endToken t') :=
    ⟨rfl, tokens.length, by simp, by simp [hlength]⟩
  have htokens : List.Forall₂ R tokens tokens' := by
    refine List.forall₂_iff_get.mpr ⟨hlength, fun k hk hk' => ⟨?_, k, ?_, ?_⟩⟩
    · have hword := congrArg (fun words => words[k]?) hsaid
      simpa [hk, hk'] using hword.symm
    · simp [List.getElem?_append_left hk]
    · simp [List.getElem?_append_left hk']
  have halike := Parser.program_alike hplaces hlast htokens
  have hends := Parser.program_ne_endless (show (endToken t).kind = .endOfInput from rfl) tokens
  rw [h.parse_eq, h'.parse_eq]
  generalize Parser.program (endToken t) tokens = r at halike hends
  generalize Parser.program (endToken t') tokens' = r' at halike
  cases halike with
  | read h => exact .inl ⟨_, _, rfl, rfl, h⟩
  | complaint h =>
      obtain ⟨hsaid, k, hk, hk'⟩ := h
      exact .inr ⟨_, k, _, _, hk, hk', hsaid, rfl, rfl⟩
  | endless => exact absurd rfl hends

/-- A description says nothing of the place. -/
theorem Token.description_eq (t : Token) :
    t.description = (Token.mk t.said.1 t.said.2 0 0).description := rfl

theorem ParseError.message_complaint (c : Complaint) (t : Token) :
    (ParseError.complaint c t).message =
      s!"Parse error at L{t.line}:{t.column}: {c.message} (got {t.description})" := rfl

/-- What a complaint says beside its place. -/
theorem message_of_said {token token' : Token} (h : token.said = token'.said) (c : Complaint) :
    ∃ detail : String, ∀ v ∈ [token, token'], (ParseError.complaint c v).message =
      s!"Parse error at L{v.line}:{v.column}: {detail}" := by
  refine ⟨s!"{c.message} (got {token.description})", ?_⟩
  intro v hv
  have hv : v.description = token.description := by
    rcases List.mem_pair.mp hv with rfl | rfl
    · rfl
    · rw [Token.description_eq, Token.description_eq token, h]
  rw [ParseError.message_complaint, hv]
  simp only [String.append_assoc, toString]

/-- **Layout says nothing.** A text that has tokens, with gaps put in front of it and
behind its lexemes, has tokens of the same kinds and values, and it has the same tree
but for its lines, or the same complaint about the token in the same place of the
list. And the values of its tokens, with a space between any two of them, are a text
with such tokens as well, with the mark of the end among them or without it. -/
theorem layout_irrelevant {t : Text} {tokens : List Token} (ht : tokenize t = .ok tokens) :
    (∀ gap t', IsGap gap → Spread t t' → ∃ tokens', tokenize (gap ++ t') = .ok tokens' ∧
      tokens'.map Token.said = tokens.map Token.said ∧
      ((∃ b b', parse t = .ok b ∧ parse (gap ++ t') = .ok b' ∧
        b.mapLines (fun _ => 0) = b'.mapLines fun _ => 0) ∨
      ∃ c, ∃ k : Nat, ∃ token token', tokens[k]? = some token ∧ tokens'[k]? = some token' ∧
        parse t = .error (.grammatical (.complaint c token)) ∧
        parse (gap ++ t') = .error (.grammatical (.complaint c token')) ∧
        ∃ detail : String, ∀ v ∈ [token, token'], (ParseError.complaint c v).message =
          s!"Parse error at L{v.line}:{v.column}: {detail}")) ∧
    ∀ values ∈ [tokens.map Token.value, tokens.dropLast.map Token.value],
      ∃ tokens', tokenize (spaced values) = .ok tokens' ∧
        tokens'.map Token.said = tokens.map Token.said := by
  obtain ⟨found, hscan, rfl⟩ := exists_scans_of_tokenize ht
  have hsaying : Says t (found.map Token.said) := says_iff.mpr ⟨found, hscan, rfl⟩
  -- a text that says the same has tokens that say the same
  have htokens {t' : Text} (h : Says t' (found.map Token.said)) :
      ∃ found', Scans t' t' [] found' ∧ found'.map Token.said = found.map Token.said ∧
        tokenize t' = .ok (found' ++ [endToken t']) ∧
        (found' ++ [endToken t']).map Token.said = (found ++ [endToken t]).map Token.said := by
    obtain ⟨found', hscan', hsaid⟩ := says_iff.mp h
    refine ⟨found', hscan', hsaid, hscan'.tokenize_eq_ok, ?_⟩
    rw [List.map_append, List.map_append, hsaid]
    rfl
  constructor
  · intro gap t' hgap hspread
    obtain ⟨found', hscan', hsaid, hok, hwords⟩ :=
      htokens ((hspread.says_same hsaying).behind_gap hgap)
    refine ⟨_, hok, hwords, ?_⟩
    rcases parse_alike hscan hscan' hsaid with htrees | ⟨c, k, u, u', hk, hk', hsaid, he, he'⟩
    · exact .inl htrees
    · exact .inr ⟨c, k, u, u', hk, hk', he, he', message_of_said hsaid c⟩
  · have hvalues : found.map Token.value = (found.map Token.said).map Prod.snd := by
      rw [List.map_map]
      rfl
    obtain ⟨hspaced, hmarked⟩ := says_spaced hsaying.isLexeme
    rw [← hvalues] at hspaced hmarked
    intro values hmem
    have hsaid : Says (spaced values) (found.map Token.said) := by
      rw [List.map_append, List.dropLast_concat] at hmem
      rcases List.mem_pair.mp hmem with rfl | rfl
      · exact hmarked
      · exact hspaced
    obtain ⟨found', -, -, hok, hwords⟩ := htokens hsaid
    exact ⟨_, hok, hwords⟩

/-- A comment with a line feed and other gaps in `a+1`, which says what it said. -/
theorem layout_irrelevant_sum :
    ∃ tokens', tokenize "\n a+\t// 2\n1".toList = .ok tokens' ∧
      tokens'.map Token.said = [(.ident, .text ['a']), (.plus, .text ['+']),
        (.intLiteral, .number 1), (.endOfInput, .text [])] := by
  have htokens : tokenize "a+1".toList = .ok [⟨.ident, .text ['a'], 1, 1⟩,
      ⟨.plus, .text ['+'], 1, 2⟩, ⟨.intLiteral, .number 1, 1, 3⟩,
      ⟨.endOfInput, .text [], 1, 4⟩] := by
    decide +kernel
  have hname : IsLexeme ['a'] ['+', '1'] (some (.ident, .text ['a'])) := by
    refine .name (by decide) nofun (fun c hc => ?_) (by decide)
    cases hc
    decide
  have hsign : IsLexeme ['+'] ['1'] (some (.plus, .text ['+'])) :=
    @IsLexeme.sign .plus ['1'] (by decide) fun _ => by decide
  have hliteral : IsLexeme ['1'] [] (some (.intLiteral, .number 1)) :=
    .literal ⟨by decide, List.forall_mem_singleton.mpr (by decide), nofun⟩ (by decide) (by decide)
  have hcomment : IsGap ['\t', '/', '/', ' ', '2', '\n'] :=
    .space (by decide) (.comment (show '\n' ∉ [' ', '2'] by decide) .nil)
  have hspread : Spread ['a', '+', '1'] ("a+\t// 2\n1".toList) :=
    .lexeme hname .nil (.lexeme hsign hcomment (.lexeme hliteral .nil .nil))
  obtain ⟨tokens', hok, hsaid, -⟩ := (layout_irrelevant htokens).1 ['\n', ' '] _
    (.space (by decide) (.space (by decide) .nil)) hspread
  exact ⟨tokens', hok, hsaid⟩

end IttyBitty.Ibcmc
