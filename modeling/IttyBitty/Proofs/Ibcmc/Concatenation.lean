import IttyBitty.Proofs.Ibcmc.Limits
import IttyBitty.Proofs.Ibcmc.Places

/-!
# Texts put one below the other

A line feed ends every lexeme, comments included, so the lexemes of a text with
another one below it are those of the first, the line feed, and those of the second
with their places further down. Whole statements end anywhere, so the statements of
the second text are read behind those of the first, and what is wrong with it is
found where it was, as many lines further down (`parse_beneath`).
-/

namespace IttyBitty.Ibcmc

/-! ## Further down -/

/-- A place, some lines and characters further on, in the same column. -/
def Position.down (lines chars : Nat) (p : Position) : Position :=
  ⟨p.offset + chars, p.line + lines, p.column⟩

/-- A token, some lines further down. -/
def Token.down (lines : Nat) (t : Token) : Token := { t with line := t.line + lines }

/-- A program, some lines further down. -/
def Block.down (lines : Nat) (b : Block) : Block := b.mapLines (· + lines)

/-- The same error, some lines and characters further on. -/
def LexError.down (lines chars : Nat) : LexError → LexError
  | .badLiteral fault digits place => .badLiteral fault digits (place.down lines chars)
  | .unknownCharacter c place => .unknownCharacter c (place.down lines chars)

/-- The same error, some lines further down. -/
def ParseError.down (lines : Nat) : ParseError → ParseError
  | .complaint c token => .complaint c (token.down lines)
  | .noTokens => .noTokens
  | .endless => .endless

/-- The same error, some lines and characters further on. -/
def FrontEndError.down (lines chars : Nat) : FrontEndError → FrontEndError
  | .lexical error => .lexical (error.down lines chars)
  | .grammatical error => .grammatical (error.down lines)

/-- How many lines further down a text is below another one. -/
def heightOf (t : Text) : Nat := 1 + t.count '\n'

/-! ## Lexemes above a line feed -/

section Above

variable {t before rest : Text} {tokens : List Token}

theorem Stops.above {p : Char → Bool} (h : Stops p rest) (hp : p '\n' = false) (more : Text) :
    Stops p (rest ++ '\n' :: more) := by
  intro c hc
  cases rest with
  | nil =>
      cases hc
      exact hp
  | cons d rest => exact h c hc

/-- A line feed goes on with no lexeme. -/
theorem IsLexeme.above {chars : Text} {found : Option (Kind × Value)}
    (h : IsLexeme chars rest found) (more : Text) :
    IsLexeme chars (rest ++ '\n' :: more) found := by
  cases h with
  | space hc => exact .space hc
  | comment hbody hend =>
      refine .comment hbody (.inr ?_)
      rcases hend with rfl | hend
      · rfl
      · rw [List.head?_append, hend]
        rfl
  | literal hrun hshort hfits =>
      exact .literal ⟨hrun.nonempty, hrun.digits, hrun.longest.above (by decide) more⟩ hshort hfits
  | keyword hkind hend => exact .keyword hkind (hend.above (by decide) more)
  | name hc hothers hend hname => exact .name hc hothers (hend.above (by decide) more) hname
  | sign hkind hend =>
      refine .sign hkind fun hshort => ?_
      cases rest with
      | nil => exact nofun
      | cons d rest => exact hend hshort

theorem Scans.above (h : Scans t before rest tokens) (more : Text) :
    Scans (t ++ '\n' :: more) before (rest ++ '\n' :: more) tokens := by
  induction h with
  | start => exact .start
  | separator _ hlexeme ih =>
      rw [List.append_assoc] at ih
      exact ih.separator (hlexeme.above more)
  | token _ hlexeme ih =>
      rw [List.append_assoc] at ih
      exact ih.token (hlexeme.above more)

end Above

/-! ## Lexemes below a line feed -/

section Beneath

variable {s t before rest : Text} {found tokens : List Token}

theorem placeBehind_beneath (s before : Text) :
    placeBehind (s ++ '\n' :: before) =
      (placeBehind before).down (heightOf s) (s.length + 1) := by
  have hcolumn : (s ++ '\n' :: before).reverse.takeWhile (· != '\n') =
      before.reverse.takeWhile (· != '\n') := by
    rw [List.reverse_append, List.reverse_cons, List.append_assoc, List.takeWhile_append]
    split
    · rename_i hall
      rw [(List.takeWhile_prefix _).eq_of_length hall]
      simp
    · rfl
  rw [placeBehind, hcolumn, placeBehind, Position.down, heightOf, Position.mk.injEq,
    List.length_append, List.length_cons, List.count_append, List.count_cons_self]
  refine ⟨?_, ?_, rfl⟩
  · show s.length + (before.length + 1) = before.length + (s.length + 1)
    omega
  · show 1 + (s.count '\n' + (before.count '\n' + 1)) =
      1 + before.count '\n' + (1 + s.count '\n')
    omega

theorem tokenBehind_beneath (s before : Text) (kind : Kind) (value : Value) :
    tokenBehind (s ++ '\n' :: before) kind value =
      (tokenBehind before kind value).down (heightOf s) := by
  rw [tokenBehind, placeBehind_beneath]
  rfl

theorem endToken_beneath (s t : Text) :
    endToken (s ++ '\n' :: t) = (endToken t).down (heightOf s) :=
  tokenBehind_beneath s t _ _

/-- A scan of the text below goes on from a scan of the one above. -/
theorem Scans.beneath (hs : Scans s s [] found) (h : Scans t before rest tokens) :
    Scans (s ++ '\n' :: t) (s ++ '\n' :: before) rest
      (found ++ tokens.map (Token.down (heightOf s))) := by
  induction h with
  | start =>
      have hspace : IsLexeme ['\n'] t none := .space (by decide)
      have habove : Scans (s ++ '\n' :: t) s (['\n'] ++ t) found := hs.above t
      rw [List.map_nil, List.append_nil]
      exact habove.separator hspace
  | separator _ hlexeme ih =>
      have hnext := ih.separator hlexeme
      rwa [List.append_assoc] at hnext
  | @token before chars rest tokens kind value _ hlexeme ih =>
      have hnext := ih.token hlexeme
      rwa [List.append_assoc, tokenBehind_beneath, List.append_assoc, ← List.map_singleton,
        ← List.map_append] at hnext

theorem Offends.beneath {place : Position} {e : LexError} (h : Offends place rest e)
    (lines chars : Nat) : Offends (place.down lines chars) rest (e.down lines chars) := by
  cases h with
  | literal hrun hbad => exact .literal hrun hbad
  | character hdigit hstart => exact .character hdigit hstart

/-- **The tokens of a text below another one** come behind those of that one. -/
theorem Scans.tokenize_beneath (hs : Scans s s [] found) (t : Text) :
    tokenize (s ++ '\n' :: t) =
      ((tokenize t).map fun tokens => found ++ tokens.map (Token.down (heightOf s))).mapError
        (LexError.down (heightOf s) (s.length + 1)) := by
  obtain ⟨before, rest, tokens, h, rfl | ⟨e, he⟩⟩ := (Scans.start (t := t)).exists_last
  · obtain rfl : before = t := by simpa using h.append_eq
    rw [(hs.beneath h).tokenize_eq_ok, h.tokenize_eq_ok, endToken_beneath, List.append_assoc]
    simp only [Except.map, Except.mapError, List.map_append, List.map_singleton]
  · have hbeneath := he.beneath (heightOf s) (s.length + 1)
    rw [← placeBehind_beneath] at hbeneath
    rw [(hs.beneath h).tokenize_eq_error hbeneath, h.tokenize_eq_error he]
    rfl

end Beneath

/-! ## Statements behind statements -/

namespace Parser

variable {last : Token}

/-- What was read before comes in front of what is read. -/
theorem stmtsFrom_done (done : List Stmt) (limit : Nat) (ts : List Token) :
    stmtsFrom last done limit ts =
      (stmtsFrom last [] limit ts).map fun p => (done.reverse ++ p.1, p.2) := by
  induction limit generalizing done ts with
  | zero => rfl
  | succ limit ih =>
      rw [stmtsFrom, stmtsFrom]
      split
      case h_1 | h_2 => simp [Except.map]
      case h_3 =>
        cases stmt last limit ts with
        | error e => rfl
        | ok p =>
            show stmtsFrom last (p.1 :: done) limit p.2 =
              (stmtsFrom last [p.1] limit p.2).map _
            rw [ih, ih [p.1]]
            cases stmtsFrom last [] limit p.2 <;> simp [Except.map]

/-- Whole statements are passed, each with one step of the limit. -/
theorem stmtsFrom_append (hlast : last.kind = .endOfInput) {body : List Stmt} {us : List Token}
    (hus : IsStmts us body) (done : List Stmt) {limit : Nat} (hlimit : us.length < limit)
    (ts : List Token) :
    ∃ limit', limit ≤ us.length + limit' ∧
      stmtsFrom last done limit (us ++ ts) = stmtsFrom last (body.reverse ++ done) limit' ts := by
  induction body generalizing us done limit with
  | nil =>
      cases hus
      exact ⟨limit, by simp, rfl⟩
  | cons s body ih =>
      obtain _ | @⟨us, vs, _, _, hstmt, hrest⟩ := hus
      obtain ⟨t, us', hus', ht⟩ := isStmt_head hstmt
      have hpositive : 0 < us.length := by simp [hus']
      rw [List.length_append] at hlimit ⊢
      obtain ⟨limit, rfl⟩ : ∃ n, limit = n + 1 := Nat.exists_eq_succ_of_ne_zero (by omega)
      have hread := (complete hlast limit).stmt (vs ++ ts) hstmt (by omega)
      have hvs : vs.length < limit := by omega
      obtain ⟨limit', hlimit', hskip⟩ := ih hrest (s :: done) hvs
      refine ⟨limit', by omega, ?_⟩
      rw [List.reverse_cons, List.append_assoc, List.append_assoc, List.singleton_append, ← hskip,
        stmtsFrom, hus', List.cons_append, kindAt_cons]
      rw [hus', List.cons_append] at hread
      split
      case h_1 hkind | h_2 hkind => exact absurd (by rw [hkind]; decide) ht
      case h_3 =>
        rw [hread]
        rfl

/-- **Whole statements in front of a program** become its first statements. -/
theorem program_append (hlast : last.kind = .endOfInput) {body : List Stmt} {us : List Token}
    (hus : IsStmts us body) (ts : List Token) :
    program last (us ++ ts) = (program last ts).map fun b =>
      ⟨body ++ b.body, ((us ++ ts).headD last).line⟩ := by
  obtain ⟨limit, hlimit, hskip⟩ := stmtsFrom_append hlast hus []
    (show us.length < 2 * (us ++ ts).length + 4 by rw [List.length_append]; omega) ts
  rw [List.length_append] at hlimit
  -- what is left of the limit is enough for the other statements
  have henough : stmtsFrom last [] limit ts = stmtsFrom last [] (2 * ts.length + 4) ts :=
    stmtsFrom_settles (by omega) [] ts (stmtsFrom_ne_endless hlast (by omega))
  rw [program, hskip, List.append_nil, stmtsFrom_done, List.reverse_reverse, henough, program]
  cases stmtsFrom last [] (2 * ts.length + 4) ts with
  | error e => rfl
  | ok p =>
      show (if kindAt last p.2 = .endOfInput then _ else _) =
        Except.map _ (if kindAt last p.2 = .endOfInput then _ else _)
      split <;> rfl

/-- A program further down has its tree further down, or the same error. -/
theorem program_down (lines : Nat) (last : Token) (ts : List Token) :
    program (last.down lines) (ts.map (Token.down lines)) =
      ((program last ts).map (Block.down lines)).mapError (ParseError.down lines) := by
  have hplaces : Places (· + (lines : Int)) id fun t t' => t' = t.down lines := by
    rintro t t' rfl
    exact ⟨rfl, rfl, rfl⟩
  have hts : List.Forall₂ (fun t t' => t' = Token.down lines t) ts (ts.map (Token.down lines)) :=
    List.forall₂_map_right_iff.mpr (List.forall₂_same.mpr fun _ _ => rfl)
  have halike := program_alike hplaces (show last.down lines = last.down lines from rfl) hts
  revert halike
  generalize program last ts = r, program (last.down lines) (ts.map (Token.down lines)) = r'
  intro halike
  cases halike with
  | read h =>
      rw [Block.mapLines_id] at h
      rw [← h]
      rfl
  | complaint h =>
      rw [h]
      rfl
  | endless => rfl

/-- A program is on the line of its first token. -/
theorem line_of_program {b : Block} {ts : List Token} (h : program last ts = .ok b) :
    b.line = (ts.headD last).line := by
  obtain ⟨⟨body, rest⟩, -, hend⟩ := bind_eq_ok_iff.mp h
  dsimp only at hend
  split at hend
  · cases hend
    rfl
  · cases hend

end Parser

/-! ## Texts -/

/-- No statements have no tokens. -/
theorem isStmts_nil_iff {ts : List Token} {body : List Stmt} (h : IsStmts ts body) :
    ts = [] ↔ body = [] := by
  cases h with
  | nil => exact ⟨fun _ => rfl, fun _ => rfl⟩
  | cons hstmt _ =>
      obtain ⟨t, us, rfl, -⟩ := Parser.isStmt_head hstmt
      exact ⟨nofun, nofun⟩

/-- The tree of two texts, one below the other. -/
def Block.above (b b' : Block) : Block :=
  ⟨b.body ++ b'.body, if b.body = [] then b'.line else b.line⟩

/-- The first line is that of the text above if there are tokens in it. -/
theorem line_above {b b' : Block} {found tokens : List Token} {eof eof' : Token} (lines : Nat)
    (hstmts : IsStmts found b.body) (hline : b.line = lineOf (found ++ [eof]))
    (hline' : b'.line = (tokens.headD eof').line) :
    ((found ++ tokens.map (Token.down lines)).headD (eof'.down lines)).line =
      (b.above (b'.down lines)).line := by
  rw [Block.above]
  cases found with
  | nil =>
      rw [if_pos ((isStmts_nil_iff hstmts).mp rfl), Block.down, Block.mapLines, hline']
      cases tokens <;> rfl
  | cons t found =>
      have hbody : b.body ≠ [] := mt (isStmts_nil_iff hstmts).mpr (List.cons_ne_nil t found)
      rw [if_neg hbody]
      exact hline.symm

/-- **The tree of a text below another one** that has a tree. -/
theorem parse_newline {s : Text} {b : Block} (hs : parse s = .ok b) (t : Text) :
    parse (s ++ '\n' :: t) =
      ((parse t).map fun b' => b.above (b'.down (heightOf s))).mapError
        (FrontEndError.down (heightOf s) (s.length + 1)) := by
  obtain ⟨found, hscan, hstmts, hline⟩ := (parse_eq_ok_iff s b).mp hs
  obtain ⟨before, rest, tokens, h, rfl | ⟨e, he⟩⟩ := (Scans.start (t := t)).exists_last
  · obtain rfl : before = t := by simpa using h.append_eq
    have heof : ((endToken before).down (heightOf s)).kind = .endOfInput := rfl
    rw [(hscan.beneath h).parse_eq, h.parse_eq, endToken_beneath,
      Parser.program_append heof hstmts, Parser.program_down]
    cases hread : Parser.program (endToken before) tokens with
    | error e => rfl
    | ok b' =>
        have habove := line_above (heightOf s) hstmts hline (Parser.line_of_program hread)
        show Except.ok (Block.mk _ _) = Except.ok (Block.mk _ _)
        rw [habove]
        rfl
  · have herror := hscan.tokenize_beneath t
    rw [h.tokenize_eq_error he] at herror
    rw [parse, parse, herror, h.tokenize_eq_error he]
    rfl

/-- **Reading a text distributes over putting it below another one.** The tokens of
the upper text, without the mark of its end, come in front of those of the lower one,
and so do the statements; tokens, statements and errors of the lower text are the
same, further down by one line more than the upper text has line feeds. -/
theorem parse_beneath (s t : Text) :
    (∀ upper, tokenize s = .ok upper →
      (∀ lower, tokenize t = .ok lower → tokenize (s ++ '\n' :: t) =
        .ok (upper.dropLast ++ lower.map (Token.down (1 + s.count '\n')))) ∧
      ∀ e, tokenize t = .error e →
        tokenize (s ++ '\n' :: t) = .error (e.down (1 + s.count '\n') (s.length + 1))) ∧
    ∀ b, parse s = .ok b →
      (∀ b', parse t = .ok b' → parse (s ++ '\n' :: t) =
        .ok ⟨b.body ++ mapLinesAll (· + (1 + s.count '\n' : Nat)) b'.body,
          if b.body = [] then b'.line + (1 + s.count '\n' : Nat) else b.line⟩) ∧
      ∀ e, parse t = .error e →
        parse (s ++ '\n' :: t) = .error (e.down (1 + s.count '\n') (s.length + 1)) := by
  constructor
  · intro upper hs
    obtain ⟨found, hscan, rfl⟩ := exists_scans_of_tokenize hs
    have hbeneath := hscan.tokenize_beneath t
    rw [List.dropLast_concat]
    refine ⟨fun lower hlower => ?_, fun e he => ?_⟩
    · rw [hbeneath, hlower]
      rfl
    · rw [hbeneath, he]
      rfl
  · intro b hs
    have hbeneath := parse_newline hs t
    refine ⟨fun b' hb' => ?_, fun e he => ?_⟩
    · rw [hbeneath, hb']
      rfl
    · rw [hbeneath, he]
      rfl

/-- Below a text that ends in a comment, one that has a tree and one that has none. -/
theorem parse_beneath_comment :
    let upper := "int a; // b".toList
    let name : Value := .text ['a']
    parse (upper ++ '\n' :: "a=1;".toList) =
      .ok ⟨[.decl ⟨false, .int, name⟩ 1, .assign name (.literal (.number 1)) 2], 1⟩ ∧
    parse (upper ++ '\n' :: ['\x7d']) =
      .error (.grammatical (.complaint .unmatchedBrace ⟨.rightBrace, .text ['\x7d'], 2, 1⟩)) := by
  intro upper name
  have htokens : tokenize upper = .ok [⟨.kwInt, .text "int".toList, 1, 1⟩, ⟨.ident, name, 1, 5⟩,
    ⟨.semi, .text [';'], 1, 6⟩, ⟨.endOfInput, .text [], 1, 12⟩] := by decide +kernel
  have htokens' : tokenize "a=1;".toList = .ok [⟨.ident, name, 1, 1⟩, ⟨.assign, .text ['='], 1, 2⟩,
    ⟨.intLiteral, .number 1, 1, 3⟩, ⟨.semi, .text [';'], 1, 4⟩, ⟨.endOfInput, .text [], 1, 5⟩] := by
    decide +kernel
  have hbrace : tokenize ['\x7d'] =
      .ok [⟨.rightBrace, .text ['\x7d'], 1, 1⟩, ⟨.endOfInput, .text [], 1, 2⟩] := by
    decide +kernel
  have hupper : parse upper = .ok ⟨[.decl ⟨false, .int, name⟩ 1], 1⟩ := by
    rw [parse, htokens]
    rfl
  refine ⟨((parse_beneath upper _).2 _ hupper).1 ⟨[.assign name (.literal (.number 1)) 1], 1⟩ ?_,
    ((parse_beneath upper _).2 _ hupper).2
      (.grammatical (.complaint .unmatchedBrace ⟨.rightBrace, .text ['\x7d'], 1, 1⟩)) ?_⟩
  · rw [parse, htokens']
    rfl
  · rw [parse, hbrace]
    rfl

end IttyBitty.Ibcmc
