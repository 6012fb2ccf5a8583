import IttyBitty.Proofs.Ibcmc.Programs
import Mathlib.Order.Monotone.Basic

/-!
# Asking a lexer again

A call for tokens goes on where the call before it stopped: behind a literal that is too
large or too long, in front of an unknown character, or at the end of the text. The last two
are never left again. What the calls keep together is followed along the text (`Passes`):
each lexeme is passed once, and so is each bad literal, of which nothing is kept. So the
calls together keep the tokens of the text as far as it can be read (`calls_resume`).
-/

namespace IttyBitty.Ibcmc

/-! ## Calls -/

/-- The tokens of an answer but for the mark of the end. -/
def Lexed.kept (r : Lexed) : List Token := r.tokens.filter (·.kind ≠ .endOfInput)

/-- The answer is no bad literal: no later call finds anything. -/
def Lexed.Settled (r : Lexed) : Prop :=
  ∀ fault digits place, r.error ≠ some (.badLiteral fault digits place)

namespace Lexer

/-- The lexer behind its first calls. -/
def behindCalls (l : Lexer) : Nat → Lexer
  | 0 => l
  | n + 1 => (l.behindCalls n).tokenize.lexer

/-- The answer to a call; calls are counted from zero. -/
def answer (l : Lexer) (n : Nat) : Lexed := (l.behindCalls n).tokenize

/-- What the first calls keep. -/
def keptBy (l : Lexer) : Nat → List Token
  | 0 => []
  | n + 1 => l.keptBy n ++ (l.answer n).kept

end Lexer

/-! ## The way through a text -/

/-- What stands before a place of a text falls apart into lexemes and literals that are too
large or too long, and the tokens among the lexemes are the given ones. -/
inductive Passes (t : Text) : (before rest : Text) → List Token → Prop
  | start : Passes t [] t []
  | separator {before chars rest : Text} {tokens : List Token}
      (h : Passes t before (chars ++ rest) tokens) (hlexeme : IsLexeme chars rest none) :
      Passes t (before ++ chars) rest tokens
  | token {before chars rest : Text} {tokens : List Token} {kind : Kind} {value : Value}
      (h : Passes t before (chars ++ rest) tokens)
      (hlexeme : IsLexeme chars rest (some (kind, value))) :
      Passes t (before ++ chars) rest (tokens ++ [tokenBehind before kind value])
  | badLiteral {before digits rest : Text} {tokens : List Token} {fault : LiteralFault}
      (h : Passes t before (digits ++ rest) tokens) (hrun : IsRun digits rest)
      (hbad : BadLiteral digits fault) : Passes t (before ++ digits) rest tokens

/-- At a place of a text there is a character that no lexeme starts with. -/
def UnknownAt (before rest : Text) (c : Char) : Prop :=
  Offends (placeBehind before) rest (.unknownCharacter c (placeBehind before))

/-- The tokens among the lexemes of a text, up to its end or its first unknown character,
without the literals that are too large or too long. -/
def HasTokens (t : Text) (tokens : List Token) : Prop :=
  ∃ before rest, Passes t before rest tokens ∧ (rest = [] ∨ ∃ c, UnknownAt before rest c)

variable {t before rest start : Text} {tokens seen done : List Token}

theorem Passes.append_eq (h : Passes t before rest tokens) : before ++ rest = t := by
  induction h with
  | start => rfl
  | separator h hlexeme ih => rw [List.append_assoc, ih]
  | token h hlexeme ih => rw [List.append_assoc, ih]
  | badLiteral h hrun hbad ih => rw [List.append_assoc, ih]

theorem Passes.kind_ne (h : Passes t before rest tokens) :
    ∀ token ∈ tokens, token.kind ≠ .endOfInput := by
  induction h with
  | start => exact fun _ h => absurd h List.not_mem_nil
  | separator _ _ ih => exact ih
  | token _ hlexeme ih =>
      intro token htoken
      rcases List.mem_append.mp htoken with htoken | htoken
      · exact ih token htoken
      · obtain rfl := List.mem_singleton.mp htoken
        exact hlexeme.spelled.2
  | badLiteral _ _ _ ih => exact ih

theorem Passes.kind_ne_right {kept : List Token} (h : Passes t before rest (seen ++ kept)) :
    ∀ token ∈ kept, token.kind ≠ .endOfInput :=
  fun token htoken => h.kind_ne token (List.mem_append_right seen htoken)

/-! ### The order of tokens -/

/-- One place is before another, by lines and then by columns. -/
def Position.Before (p q : Position) : Prop :=
  p.line < q.line ∨ p.line = q.line ∧ p.column < q.column

/-- One token starts before another, by lines and then by columns. -/
def Token.Before (a b : Token) : Prop := a.line < b.line ∨ a.line = b.line ∧ a.column < b.column

theorem Position.before_after (p : Position) (c : Char) : p.Before (p.after c) := by
  rw [Before, Position.after]
  split
  · exact .inl (Nat.lt_succ_self _)
  · exact .inr ⟨rfl, Nat.lt_succ_self _⟩

theorem Position.Before.trans {p q r : Position} (h : p.Before q) (h' : q.Before r) :
    p.Before r := by
  rw [Before] at *
  omega

theorem Position.before_afterText (p : Position) {chars : Text} (h : chars ≠ []) :
    p.Before (p.afterText chars) := by
  induction chars generalizing p with
  | nil => exact absurd rfl h
  | cons c chars ih =>
      cases chars with
      | nil => exact p.before_after c
      | cons d chars => exact (p.before_after c).trans (ih (p.after c) (List.cons_ne_nil d chars))

theorem placeBehind_before (before : Text) {chars : Text} (h : chars ≠ []) :
    (placeBehind before).Before (placeBehind (before ++ chars)) :=
  afterText_placeBehind before chars ▸ (placeBehind before).before_afterText h

theorem tokenBehind_before {before before' : Text} {kind kind' : Kind} {value value' : Value}
    (h : (placeBehind before).Before (placeBehind before')) :
    (tokenBehind before kind value).Before (tokenBehind before' kind' value') := by
  rw [Position.Before] at h
  rw [Token.Before]
  dsimp only [tokenBehind]
  omega

/-- Tokens are passed in the order in which they start. -/
theorem Passes.ordered (h : Passes t before rest tokens) :
    tokens.Pairwise Token.Before ∧ ∀ token ∈ tokens, ∃ before' kind value,
      token = tokenBehind before' kind value ∧
        (placeBehind before').Before (placeBehind before) := by
  induction h with
  | start => exact ⟨.nil, fun _ h => absurd h List.not_mem_nil⟩
  | separator _ hlexeme ih =>
      refine ⟨ih.1, fun token htoken => ?_⟩
      obtain ⟨before', kind, value, rfl, hbefore⟩ := ih.2 token htoken
      exact ⟨before', kind, value, rfl, hbefore.trans (placeBehind_before _ hlexeme.ne_nil)⟩
  | badLiteral _ hrun _ ih =>
      refine ⟨ih.1, fun token htoken => ?_⟩
      obtain ⟨before', kind, value, rfl, hbefore⟩ := ih.2 token htoken
      exact ⟨before', kind, value, rfl, hbefore.trans (placeBehind_before _ hrun.nonempty)⟩
  | @token before chars rest tokens kind value _ hlexeme ih =>
      have hnew := placeBehind_before before hlexeme.ne_nil
      constructor
      · rw [List.pairwise_append]
        refine ⟨ih.1, List.pairwise_singleton _ _, ?_⟩
        intro token htoken new hnew'
        obtain rfl := List.mem_singleton.mp hnew'
        obtain ⟨before', kind, value, rfl, hbefore⟩ := ih.2 token htoken
        exact tokenBehind_before hbefore
      · intro token htoken
        rcases List.mem_append.mp htoken with htoken | htoken
        · obtain ⟨before', kind, value, rfl, hbefore⟩ := ih.2 token htoken
          exact ⟨before', kind, value, rfl, hbefore.trans hnew⟩
        · obtain rfl := List.mem_singleton.mp htoken
          exact ⟨before, kind, value, rfl, hnew⟩

/-! ## One call -/

/-- How a call can end that starts behind some text: at the end of the whole text, in front
of an unknown character, or behind a bad literal. Before it some tokens have been kept. -/
inductive Ends (t start : Text) (seen : List Token) : Lexed → Prop
  | ended {kept : List Token} (h : Passes t t [] (seen ++ kept))
      (hstart : start.length ≤ t.length) :
      Ends t start seen ⟨lexerBehind t [], kept ++ [endToken t], none⟩
  | unknown {before rest : Text} {kept : List Token} {c : Char}
      (h : Passes t before rest (seen ++ kept)) (hstart : start.length ≤ before.length)
      (hunknown : UnknownAt before rest c) :
      Ends t start seen
        ⟨lexerBehind before rest, kept, some (.unknownCharacter c (placeBehind before))⟩
  | badLiteral {before digits rest : Text} {kept : List Token} {fault : LiteralFault}
      (h : Passes t before (digits ++ rest) (seen ++ kept))
      (hstart : start.length ≤ before.length) (hrun : IsRun digits rest)
      (hbad : BadLiteral digits fault) :
      Ends t start seen ⟨lexerBehind (before ++ digits) rest, kept,
        some (.badLiteral fault digits (placeBehind before))⟩

/-- What a call does from a place on that the way through the text leads to. -/
theorem Passes.tokensFrom_ends (h : Passes t before rest (seen ++ done.reverse)) {limit : Nat}
    (hlimit : rest.length ≤ limit) (hstart : start.length ≤ before.length) :
    Ends t start seen (Lexer.tokensFrom done limit (lexerBehind before rest)) := by
  -- every lexeme leaves less of the text
  induction hlength : rest.length using Nat.strong_induction_on
    generalizing before rest done limit with
  | _ n ih =>
    subst hlength
    cases rest with
    | nil =>
        obtain rfl : before = t := by simpa using h.append_eq
        rw [tokensFrom_nil, List.reverse_cons]
        exact .ended h hstart
    | cons c tail =>
        have hcuts := cuts_lexeme c tail
        generalize lexeme c tail = cut at hcuts
        cases hcuts with
        | @found chars rest' found htext hlexeme =>
            rw [← htext] at h hlimit ih ⊢
            obtain ⟨limit', hlimit', hstep⟩ := tokensFrom_lexeme hlexeme done hlimit
            rw [hstep]
            have hchars := List.length_pos_iff.mpr hlexeme.ne_nil
            rw [List.length_append] at ih
            refine ih rest'.length (by omega) ?_ hlimit' (by rw [List.length_append]; omega) rfl
            rcases found with _ | ⟨kind, value⟩
            · exact h.separator hlexeme
            · have hnext := h.token hlexeme
              rwa [List.append_assoc, ← List.reverse_cons] at hnext
        | badLiteral htext hrun hbad =>
            rw [← htext] at h hlimit ⊢
            rw [tokensFrom_badLiteral hrun hbad hlimit]
            exact .badLiteral h hstart hrun hbad
        | unknown hdigit hnone =>
            have hunknown : UnknownAt before (c :: tail) c := .character hdigit hnone
            rw [tokensFrom_unknown hunknown hlimit]
            exact .unknown h hstart hunknown

theorem Passes.tokenize_ends (h : Passes t before rest tokens) :
    Ends t before tokens (lexerBehind before rest).tokenize := by
  have hnone : Passes t before rest (tokens ++ [].reverse) := by simpa using h
  exact hnone.tokensFrom_ends (Nat.le_refl _) (Nat.le_refl _)

theorem kept_of_kind_ne {kept : List Token} (h : ∀ token ∈ kept, token.kind ≠ .endOfInput)
    (l : Lexer) (e : Option LexError) : (Lexed.mk l kept e).kept = kept := by
  rw [Lexed.kept, List.filter_eq_self]
  simpa using h

theorem kept_concat_endToken {kept : List Token} (h : ∀ token ∈ kept, token.kind ≠ .endOfInput)
    (l : Lexer) (e : Option LexError) : (Lexed.mk l (kept ++ [endToken t]) e).kept = kept := by
  have hend : ([endToken t].filter fun token => token.kind ≠ .endOfInput) = [] := rfl
  rw [Lexed.kept, List.filter_append, hend, List.append_nil, List.filter_eq_self]
  simpa using h

/-- A call leads on along the way through the text. -/
theorem Ends.passes {r : Lexed} (h : Ends t start seen r) :
    ∃ before rest, r.lexer = lexerBehind before rest ∧ start.length ≤ before.length ∧
      Passes t before rest (seen ++ r.kept) := by
  cases h with
  | ended h hstart =>
      refine ⟨_, _, rfl, hstart, ?_⟩
      rwa [kept_concat_endToken h.kind_ne_right]
  | unknown h hstart hunknown =>
      refine ⟨_, _, rfl, hstart, ?_⟩
      rwa [kept_of_kind_ne h.kind_ne_right]
  | badLiteral h hstart hrun hbad =>
      refine ⟨_, _, rfl, by rw [List.length_append]; omega, ?_⟩
      rw [kept_of_kind_ne h.kind_ne_right]
      exact h.badLiteral hrun hbad

/-! ## All calls -/

/-- A lexer at the beginning of a text. -/
def lexerOf (t : Text) : Lexer := { rest := t }

/-- Behind any number of calls the lexer is on the way through the text. -/
theorem behindCalls_passes (t : Text) (n : Nat) :
    ∃ before rest, (lexerOf t).behindCalls n = lexerBehind before rest ∧
      Passes t before rest ((lexerOf t).keptBy n) := by
  induction n with
  | zero => exact ⟨[], t, rfl, .start⟩
  | succ n ih =>
      obtain ⟨before, rest, hn, h⟩ := ih
      obtain ⟨before', rest', hlexer, -, h'⟩ := h.tokenize_ends.passes
      rw [← hn] at hlexer h'
      exact ⟨before', rest', hlexer, h'⟩

/-- Each call ends in one of the three ways. -/
theorem answer_ends (t : Text) (n : Nat) :
    ∃ before rest, (lexerOf t).behindCalls n = lexerBehind before rest ∧
      Ends t before ((lexerOf t).keptBy n) ((lexerOf t).answer n) := by
  obtain ⟨before, rest, hn, h⟩ := behindCalls_passes t n
  have hends := h.tokenize_ends
  rw [← hn] at hends
  exact ⟨before, rest, hn, hends⟩

/-- Places never go back. -/
theorem offset_monotone (t : Text) :
    Monotone fun n => ((lexerOf t).behindCalls n).place.offset := by
  refine monotone_nat_of_le_succ fun n => ?_
  obtain ⟨before, rest, hn, hends⟩ := answer_ends t n
  obtain ⟨before', rest', hlexer, hlength, -⟩ := hends.passes
  rw [show (lexerOf t).behindCalls (n + 1) = lexerBehind before' rest' from hlexer, hn]
  exact hlength

/-- A call that does not move the lexer is answered for good. -/
theorem answer_of_fixed {l : Lexer} {n : Nat}
    (h : (l.behindCalls (n + 1)).tokenize.lexer = l.behindCalls (n + 1)) {m : Nat} (hm : n < m) :
    l.answer m = (l.behindCalls (n + 1)).tokenize := by
  have hstays : l.behindCalls m = l.behindCalls (n + 1) := by
    induction m, hm using Nat.le_induction with
    | base => rfl
    | succ m hm ih => rw [Lexer.behindCalls, ih, h]
  rw [Lexer.answer, hstays]

theorem tokenize_end : (lexerBehind t []).tokenize = ⟨lexerBehind t [], [endToken t], none⟩ :=
  tokensFrom_nil [] 0

theorem tokenize_unknown {c : Char} (h : UnknownAt before rest c) :
    (lexerBehind before rest).tokenize =
      ⟨lexerBehind before rest, [], some (.unknownCharacter c (placeBehind before))⟩ :=
  tokensFrom_unknown h (Nat.le_refl _)

/-- **After a success there is nothing left** but the end, again and again. -/
theorem answer_of_success {n : Nat} (h : ((lexerOf t).answer n).error = none) :
    (∃ kept, ((lexerOf t).answer n).tokens = kept ++ [endToken t]) ∧
      ∀ m > n, (lexerOf t).answer m = ⟨lexerBehind t [], [endToken t], none⟩ := by
  obtain ⟨before, rest, -, hends⟩ := answer_ends t n
  have hnext : (lexerOf t).behindCalls (n + 1) = ((lexerOf t).answer n).lexer := rfl
  generalize (lexerOf t).answer n = r at h hends hnext
  cases hends with
  | @ended kept =>
      refine ⟨⟨kept, rfl⟩, fun m hm => ?_⟩
      rw [answer_of_fixed (by rw [hnext, tokenize_end]) hm, hnext, tokenize_end]
  | unknown => cases h
  | badLiteral => cases h

/-- **An unknown character is never passed**: every later call says the same. -/
theorem answer_of_unknown {n : Nat} {c : Char} {place : Position}
    (h : ((lexerOf t).answer n).error = some (.unknownCharacter c place)) :
    place = ((lexerOf t).behindCalls (n + 1)).place ∧
      ((lexerOf t).behindCalls (n + 1)).rest.head? = some c ∧
      ∀ m > n, (lexerOf t).answer m =
        ⟨(lexerOf t).behindCalls (n + 1), [], some (.unknownCharacter c place)⟩ := by
  obtain ⟨before, rest, -, hends⟩ := answer_ends t n
  have hnext : (lexerOf t).behindCalls (n + 1) = ((lexerOf t).answer n).lexer := rfl
  generalize (lexerOf t).answer n = r at h hends hnext
  cases hends with
  | unknown _ _ hunknown =>
      cases h
      refine ⟨by rw [hnext]; rfl, ?_, fun m hm => ?_⟩
      · rw [hnext]
        cases hunknown
        rfl
      · rw [answer_of_fixed (by rw [hnext, tokenize_unknown hunknown]) hm, hnext,
          tokenize_unknown hunknown]
  | ended => cases h
  | badLiteral => cases h

/-- **A bad literal is passed**: the next call starts behind it. -/
theorem answer_of_badLiteral {n : Nat} {fault : LiteralFault} {digits : Text}
    {place : Position}
    (h : ((lexerOf t).answer n).error = some (.badLiteral fault digits place)) :
    ∃ before rest, before ++ digits ++ rest = t ∧ IsRun digits rest ∧
      BadLiteral digits fault ∧ place = placeBehind before ∧
      (lexerOf t).behindCalls (n + 1) = lexerBehind (before ++ digits) rest := by
  obtain ⟨before, rest, -, hends⟩ := answer_ends t n
  have hnext : (lexerOf t).behindCalls (n + 1) = ((lexerOf t).answer n).lexer := rfl
  generalize (lexerOf t).answer n = r at h hends hnext
  cases hends with
  | @badLiteral before _ rest _ _ hpasses _ hrun hbad =>
      cases h
      refine ⟨before, rest, ?_, hrun, hbad, rfl, hnext⟩
      rw [List.append_assoc, hpasses.append_eq]
  | ended => cases h
  | unknown => cases h

/-! ## What the calls keep together -/

/-- Behind a settled call no call keeps anything. -/
theorem kept_of_settled {n : Nat} (h : ((lexerOf t).answer n).Settled) {m : Nat} (hm : n < m) :
    ((lexerOf t).answer m).kept = [] := by
  cases herror : ((lexerOf t).answer n).error with
  | none =>
      rw [(answer_of_success herror).2 m hm]
      rfl
  | some e =>
      cases e with
      | unknownCharacter c place =>
          rw [(answer_of_unknown herror).2.2 m hm]
          rfl
      | badLiteral fault digits place => exact absurd herror (h fault digits place)

theorem keptBy_of_settled {n : Nat} (h : ((lexerOf t).answer n).Settled) {m : Nat}
    (hm : n < m) : (lexerOf t).keptBy m = (lexerOf t).keptBy (n + 1) := by
  induction m, hm using Nat.le_induction with
  | base => rfl
  | succ m hm ih => rw [Lexer.keptBy, ih, kept_of_settled h hm, List.append_nil]

/-- A settled call has read the text as far as it can be read. -/
theorem hasTokens_keptBy {n : Nat} (h : ((lexerOf t).answer n).Settled) :
    HasTokens t ((lexerOf t).keptBy (n + 1)) := by
  obtain ⟨before, rest, -, hends⟩ := answer_ends t n
  rw [Lexer.keptBy]
  generalize (lexerOf t).answer n = r at h hends
  generalize (lexerOf t).keptBy n = seen at hends
  cases hends with
  | ended hpasses =>
      refine ⟨t, [], ?_, .inl rfl⟩
      rwa [kept_concat_endToken hpasses.kind_ne_right]
  | unknown hpasses _ hunknown =>
      refine ⟨_, _, ?_, .inr ⟨_, hunknown⟩⟩
      rwa [kept_of_kind_ne hpasses.kind_ne_right]
  | @badLiteral before digits _ _ fault => exact absurd rfl (h fault digits (placeBehind before))

/-- The calls come through every place that the way through a text leads to. -/
theorem Passes.reached (h : Passes t before rest tokens) :
    ∃ n limit done, rest.length ≤ limit ∧ tokens = (lexerOf t).keptBy n ++ done.reverse ∧
      (lexerOf t).answer n = Lexer.tokensFrom done limit (lexerBehind before rest) := by
  induction h with
  | start => exact ⟨0, t.length, [], Nat.le_refl _, rfl, rfl⟩
  | separator _ hlexeme ih =>
      obtain ⟨n, limit, done, hlimit, htokens, hanswer⟩ := ih
      obtain ⟨limit', hlimit', hstep⟩ := tokensFrom_lexeme hlexeme done hlimit
      exact ⟨n, limit', done, hlimit', htokens, hanswer.trans hstep⟩
  | @token before chars rest tokens kind value _ hlexeme ih =>
      obtain ⟨n, limit, done, hlimit, rfl, hanswer⟩ := ih
      obtain ⟨limit', hlimit', hstep⟩ := tokensFrom_lexeme hlexeme done hlimit
      refine ⟨n, limit', tokenBehind before kind value :: done, hlimit', ?_, hanswer.trans hstep⟩
      rw [List.reverse_cons, List.append_assoc]
  | @badLiteral before digits rest tokens fault h hrun hbad ih =>
      obtain ⟨n, limit, done, hlimit, rfl, hanswer⟩ := ih
      rw [tokensFrom_badLiteral hrun hbad hlimit] at hanswer
      refine ⟨n + 1, rest.length, [], Nat.le_refl _, ?_, ?_⟩
      · rw [Lexer.keptBy, hanswer, List.reverse_nil, List.append_nil,
          kept_of_kind_ne h.kind_ne_right]
      · rw [Lexer.answer, Lexer.behindCalls, ← Lexer.answer, hanswer]
        rfl

/-- The tokens of a text are kept by the calls up to some settled one. -/
theorem HasTokens.exists_settled (h : HasTokens t tokens) :
    ∃ n, ((lexerOf t).answer n).Settled ∧ (lexerOf t).keptBy (n + 1) = tokens := by
  obtain ⟨before, rest, h, hlast⟩ := h
  obtain ⟨n, limit, done, hlimit, rfl, hanswer⟩ := h.reached
  have hkind := h.kind_ne_right
  refine ⟨n, ?_⟩
  rw [Lexer.keptBy, hanswer]
  rcases hlast with rfl | ⟨c, hunknown⟩
  · obtain rfl : before = t := by simpa using h.append_eq
    rw [tokensFrom_nil, List.reverse_cons, kept_concat_endToken hkind]
    exact ⟨nofun, rfl⟩
  · rw [tokensFrom_unknown hunknown hlimit, kept_of_kind_ne hkind]
    exact ⟨nofun, rfl⟩

/-- **What the calls keep are the tokens of the text**, once one of them is settled. -/
theorem hasTokens_iff {n m : Nat} (h : ((lexerOf t).answer n).Settled) (hm : n < m) :
    HasTokens t tokens ↔ tokens = (lexerOf t).keptBy m := by
  rw [keptBy_of_settled h hm]
  constructor
  · intro htokens
    obtain ⟨n', h', rfl⟩ := htokens.exists_settled
    rw [← keptBy_of_settled h (show n < max n n' + 1 by omega),
      keptBy_of_settled h' (show n' < max n n' + 1 by omega)]
  · rintro rfl
    exact hasTokens_keptBy h

/-- A call that is not settled moves the lexer on. -/
theorem offset_lt {n : Nat} (h : ¬ ((lexerOf t).answer n).Settled) :
    ((lexerOf t).behindCalls n).place.offset < ((lexerOf t).behindCalls (n + 1)).place.offset := by
  obtain ⟨before, rest, hn, hends⟩ := answer_ends t n
  rw [hn, Lexer.behindCalls, ← Lexer.answer]
  generalize (lexerOf t).answer n = r at h hends
  cases hends with
  | ended => exact absurd nofun h
  | unknown => exact absurd nofun h
  | @badLiteral before' digits _ _ _ _ hlength hrun =>
      show before.length < (before' ++ digits).length
      have hdigits := List.length_pos_iff.mpr hrun.nonempty
      rw [List.length_append]
      omega

/-- There are at most as many bad literals as characters. -/
theorem exists_settled (t : Text) : ∃ n ≤ t.length, ((lexerOf t).answer n).Settled := by
  by_contra hnone
  have hmoves : ∀ n ≤ t.length + 1, n ≤ ((lexerOf t).behindCalls n).place.offset := by
    intro n hn
    induction n with
    | zero => exact Nat.zero_le _
    | succ n ih =>
        have hlt := offset_lt fun h => hnone ⟨n, by omega, h⟩
        have hle := ih (by omega)
        omega
  obtain ⟨before, rest, hn, h⟩ := behindCalls_passes t (t.length + 1)
  have hlength : before.length + rest.length = t.length := by
    rw [← List.length_append, h.append_eq]
  have hoffset := hmoves (t.length + 1) (Nat.le_refl _)
  rw [hn] at hoffset
  have hplace : (lexerBehind before rest).place.offset = before.length := rfl
  omega

/-- **Calls go on where they stopped.** The lexer behind any number of calls is at a true
place of the text, and never before an earlier one. When a call has come to the end, every
later one gives the mark of the end and stays there; when one has met an unknown character,
every later one meets it again and keeps nothing; when one has met a literal that is too
large or too long, the next one starts behind it. What the calls keep is passed on the way,
token by token; and as soon as one call has come to the end or to an unknown character, which
some call does, the tokens that they have kept are those of the text up to there without the
literals that are too large or too long, in their order and each of them once. -/
theorem calls_resume (t : Text) :
    (∀ n, ∃ before rest, before ++ rest = t ∧
      (lexerOf t).behindCalls n = lexerBehind before rest ∧
      Passes t before rest ((lexerOf t).keptBy n)) ∧
    (Monotone fun n => ((lexerOf t).behindCalls n).place.offset) ∧
    (∀ n, ((lexerOf t).answer n).error = none →
      (∃ kept, ((lexerOf t).answer n).tokens = kept ++ [endToken t]) ∧
      ∀ m > n, (lexerOf t).answer m = ⟨lexerBehind t [], [endToken t], none⟩) ∧
    (∀ n c place, ((lexerOf t).answer n).error = some (.unknownCharacter c place) →
      place = ((lexerOf t).behindCalls (n + 1)).place ∧
      ((lexerOf t).behindCalls (n + 1)).rest.head? = some c ∧
      ∀ m > n, (lexerOf t).answer m =
        ⟨(lexerOf t).behindCalls (n + 1), [], some (.unknownCharacter c place)⟩) ∧
    (∀ n fault digits place, ((lexerOf t).answer n).error = some (.badLiteral fault digits place) →
      ∃ before rest, before ++ digits ++ rest = t ∧ IsRun digits rest ∧
        BadLiteral digits fault ∧ place = placeBehind before ∧
        (lexerOf t).behindCalls (n + 1) = lexerBehind (before ++ digits) rest) ∧
    (∀ n, ((lexerOf t).keptBy n).Pairwise Token.Before) ∧
    (∃ n ≤ t.length, ((lexerOf t).answer n).Settled) ∧
    (∀ n, ((lexerOf t).answer n).Settled → ∀ m > n, ∀ tokens,
      HasTokens t tokens ↔ tokens = (lexerOf t).keptBy m) := by
  have hway := behindCalls_passes t
  refine ⟨fun n => ?_, offset_monotone t, fun n h => answer_of_success h,
    fun n c place h => answer_of_unknown h, fun n fault digits place h => answer_of_badLiteral h,
    fun n => ?_, exists_settled t, fun n h m hm tokens => hasTokens_iff h hm⟩
  · obtain ⟨before, rest, hn, h⟩ := hway n
    exact ⟨before, rest, h.append_eq, hn, h⟩
  · obtain ⟨before, rest, -, h⟩ := hway n
    exact h.ordered.1

/-- A literal that is too large between two names, and an unknown character behind them: the
first call stops behind the literal, the second in front of the character, as do all others. -/
theorem calls_resume_literal :
    let t : Text := ['a', ' ', '6', '5', '5', '3', '6', ' ', 'b', '?']
    (lexerOf t).answer 0 = ⟨⟨[' ', 'b', '?'], ⟨7, 1, 8⟩⟩, [⟨.ident, .text ['a'], 1, 1⟩],
      some (.badLiteral .tooLarge ['6', '5', '5', '3', '6'] ⟨2, 1, 3⟩)⟩ ∧
    (lexerOf t).answer 1 = ⟨⟨['?'], ⟨9, 1, 10⟩⟩, [⟨.ident, .text ['b'], 1, 9⟩],
      some (.unknownCharacter '?' ⟨9, 1, 10⟩)⟩ ∧
    (∀ m > 1, (lexerOf t).answer m =
      ⟨⟨['?'], ⟨9, 1, 10⟩⟩, [], some (.unknownCharacter '?' ⟨9, 1, 10⟩)⟩) ∧
    ∀ tokens, HasTokens t tokens ↔
      tokens = [⟨.ident, .text ['a'], 1, 1⟩, ⟨.ident, .text ['b'], 1, 9⟩] := by
  intro t
  obtain ⟨-, -, -, hunknown, -, -, -, htokens⟩ := calls_resume t
  have herror : ((lexerOf t).answer 1).error = some (.unknownCharacter '?' ⟨9, 1, 10⟩) := by
    decide
  have hsettled : ((lexerOf t).answer 1).Settled := by
    intro fault digits place h
    rw [herror] at h
    cases h
  exact ⟨by decide, by decide, (hunknown 1 _ _ herror).2.2, htokens 1 hsettled 2 (by decide)⟩

/-- Of a bad literal alone nothing is ever kept. -/
theorem keptBy_badLiteral {digits : Text} {fault : LiteralFault} (hrun : IsRun digits [])
    (hbad : BadLiteral digits fault) (n : Nat) : (lexerOf digits).keptBy n = [] := by
  have hfirst : (lexerOf digits).tokenize = ⟨lexerBehind digits [], [],
      some (.badLiteral fault digits (placeBehind []))⟩ := by
    have h : Lexer.tokensFrom [] _ (lexerBehind [] (digits ++ [])) = _ :=
      tokensFrom_badLiteral hrun hbad (Nat.le_refl _)
    rwa [List.append_nil] at h
  have hend : ∀ n, (lexerOf digits).behindCalls (n + 1) = lexerBehind digits [] := by
    intro n
    induction n with
    | zero => rw [Lexer.behindCalls, Lexer.behindCalls, hfirst]
    | succ n ih => rw [Lexer.behindCalls, ih, tokenize_end]
  induction n with
  | zero => rfl
  | succ n ih =>
      rw [Lexer.keptBy, ih, Lexer.answer]
      cases n with
      | zero => rw [Lexer.behindCalls, hfirst]; rfl
      | succ n => rw [hend, tokenize_end]; rfl

/-- A literal that fits in a word is lost if it has enough zeros in front. -/
theorem calls_lose_padded_literal :
    let t := List.replicate 5000 '0' ++ ['1']
    IsRun t [] ∧ Decimal.number t ≤ 65535 ∧ ∀ n, (lexerOf t).keptBy n = [] := by
  intro t
  have hlength : t.length = 5001 := by
    rw [List.length_append, List.length_replicate, List.length_singleton]
  have hrun : IsRun t [] :=
    isRun_nil (List.ne_nil_of_length_pos (by omega)) (List.forall_mem_append.mpr
      ⟨List.forall_mem_replicate.mpr (.inr (by decide)), List.forall_mem_singleton.mpr (by decide)⟩)
  have hnumber : Decimal.number t = 1 := Decimal.number_zeros 5000 ['1']
  exact ⟨hrun, by omega, keptBy_badLiteral hrun (.tooLong (by omega))⟩

end IttyBitty.Ibcmc
