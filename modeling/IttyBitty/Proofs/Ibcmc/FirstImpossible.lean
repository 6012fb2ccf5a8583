import IttyBitty.Proofs.Ibcmc.Limits
import IttyBitty.Proofs.Ibcmc.Places
import IttyBitty.Proofs.Ibcmc.Tracking

/-!
# Complaints are about the first impossible token

The parser accepts the tokens that lead from the start back to it, with the mark of the
end behind them. So tokens that lead anywhere from where there is a way back are the
beginning of a list that is accepted, and with a token that the state refuses they are
not. The parser complains about just such a token (`first_impossible_token`).
-/

namespace IttyBitty.Ibcmc

/-! ## Tokens that were passed -/

theorem State.run_endOfInput (s : State) (kinds more : List Kind) :
    s.run (kinds ++ .endOfInput :: more) = none := by
  rw [run_append]
  cases s.run kinds with
  | none => rfl
  | some s' =>
      show s'.next .endOfInput >>= _ = none
      rw [next_endOfInput]
      rfl

namespace Parser

variable {last : Token} {s s' : State} {ts rest : List Token}

/-- What was passed stands in front of the rest, or is everything with the last token a
number of times behind it. -/
theorem Steps.passed (h : Steps last s ts s' rest) :
    ∃ us, s.run (us.map Token.kind) = some s' ∧
      (us ++ rest = ts ∨ rest = [] ∧ ∃ n, us = ts ++ List.replicate n last) := by
  induction h with
  | done => exact ⟨[], rfl, .inl rfl⟩
  | @token s s' s'' ts rest hnext _ ih =>
      obtain ⟨us, hrun, hus⟩ := ih
      refine ⟨ts.headD last :: us, ?_, ?_⟩
      · show s.next (kindAt last ts) >>= _ = _
        rw [hnext]
        exact hrun
      · cases ts with
        | nil =>
            rcases hus with hus | ⟨rfl, n, rfl⟩
            · obtain ⟨rfl, rfl⟩ := List.append_eq_nil_iff.mp hus
              exact .inr ⟨rfl, 1, rfl⟩
            · exact .inr ⟨rfl, n + 1, rfl⟩
        | cons t ts =>
            rcases hus with hus | ⟨rfl, n, rfl⟩
            · exact .inl (congrArg (List.cons t) hus)
            · exact .inr ⟨rfl, n, rfl⟩

/-- The end of the input is not passed. -/
theorem Steps.passed_front (hlast : last.kind = .endOfInput) (h : Steps last s ts s' rest) :
    ∃ us, us ++ rest = ts ∧ s.run (us.map Token.kind) = some s' := by
  obtain ⟨us, hrun, hus | ⟨rfl, n, rfl⟩⟩ := h.passed
  · exact ⟨us, hus, hrun⟩
  · cases n with
    | zero => exact ⟨ts, List.append_nil ts, by simpa using hrun⟩
    | succ n =>
        rw [List.replicate_succ, List.map_append, List.map_cons, hlast,
          State.run_endOfInput] at hrun
        cases hrun

/-! ## What is accepted -/

/-- A complaint about a program is about a token that a state refuses. -/
theorem program_refuses {e : ParseError} (h : program last ts = .error e) :
    e = .endless ∨ ∃ c s' rest, Steps last .start ts s' rest ∧
      s'.Refuses (kindAt last rest) ∧ e = .complaint c (rest.headD last) := by
  have htracks := (tracked last (2 * ts.length + 4)).stmts 0 [] ts
  rw [program] at h
  generalize stmtsFrom last [] (2 * ts.length + 4) ts = r at h htracks
  cases htracks with
  | endless =>
      cases h
      exact .inl rfl
  | @stuck c s' rest hsteps hrefuses =>
      cases h
      exact .inr ⟨c, s', rest, hsteps, hrefuses, rfl⟩
  | @read body s' rest hsteps hread =>
      obtain ⟨rfl, hstop⟩ := hread
      change (if kindAt last rest = .endOfInput then _ else _) = _ at h
      split at h
      · cases h
      · rename_i hend
        cases h
        have hbrace := (List.mem_pair.mp hstop).resolve_right hend
        exact .inr ⟨_, _, rest, hsteps, by rw [hbrace]; exact ⟨rfl, fun _ => by decide⟩, rfl⟩

/-- An accepted list has an end, and in front of it tokens that lead back to the start. -/
theorem exists_end_of_accepted {tokens : List Token} {b : Block}
    (h : parseTokens tokens = .ok b) :
    ∃ us eof more, tokens = us ++ eof :: more ∧ eof.kind = .endOfInput ∧
      State.start.run (us.map Token.kind) = some .start := by
  obtain rfl | ⟨ts, last, rfl⟩ := List.eq_nil_or_concat tokens
  · cases h
  · rw [List.concat_eq_append, parseTokens_concat] at h
    obtain ⟨⟨body, rest⟩, hbody, hend⟩ := bind_eq_ok_iff.mp h
    have htracks := (tracked last (2 * ts.length + 4)).stmts 0 [] ts
    rw [hbody] at htracks
    cases htracks with
    | @read body s' rest hsteps hread =>
        obtain ⟨rfl, -⟩ := hread
        dsimp only at hend
        split at hend
        · rename_i hkind
          cases rest with
          | nil =>
              obtain ⟨us, rfl, hrun⟩ := hsteps.passed_front hkind
              exact ⟨us, last, [], by simp, hkind, hrun⟩
          | cons t rest =>
              obtain ⟨us, hrun, rfl | ⟨hrest, -⟩⟩ := hsteps.passed
              · exact ⟨us, t, rest ++ [last], by simp, hkind, hrun⟩
              · cases hrest
        · cases hend

/-- Tokens that lead back to the start are accepted, with the mark of the end. -/
theorem accepted_of_run {us : List Token} {eof : Token} (heof : eof.kind = .endOfInput)
    (hrun : State.start.run (us.map Token.kind) = some .start) :
    ∃ b, parseTokens (us ++ [eof]) = .ok b := by
  rw [parseTokens_concat]
  cases hread : program eof us with
  | ok b => exact ⟨b, rfl⟩
  | error e =>
      obtain rfl | ⟨c, s, rest, hsteps, ⟨hnext, hend⟩, -⟩ := program_refuses hread
      · exact absurd hread (program_ne_endless heof us)
      · -- the token that is refused would have led on
        obtain ⟨vs, rfl, hpassed⟩ := hsteps.passed_front heof
        rw [List.map_append, State.run_append, hpassed] at hrun
        cases rest with
        | nil =>
            obtain rfl : s = .start := Option.some.inj hrun
            exact absurd heof (hend rfl)
        | cons t rest =>
            change s.next t.kind >>= _ = _ at hrun
            rw [show s.next t.kind = none from hnext] at hrun
            cases hrun

end Parser

/-! ## Viable tokens -/

/-- The tokens are the beginning of a list that is accepted. -/
def Viable (pre : List Token) : Prop := ∃ more b, parseTokens (pre ++ more) = .ok b

theorem Viable.of_append {pre more : List Token} (h : Viable (pre ++ more)) : Viable pre := by
  obtain ⟨others, b, h⟩ := h
  exact ⟨more ++ others, b, by rwa [← List.append_assoc]⟩

/-- From where there is a way back, tokens go on to a list that is accepted. -/
theorem viable_of_run {us : List Token} {s : State}
    (hrun : State.start.run (us.map Token.kind) = some s) (hplain : s.Plain) : Viable us := by
  obtain ⟨kinds, hback⟩ := State.completion hplain
  let tokens : List Token := kinds.map fun kind => ⟨kind, .text [], 0, 0⟩
  have hkinds : tokens.map Token.kind = kinds := by simp [tokens, Function.comp_def]
  have hall : State.start.run ((us ++ tokens).map Token.kind) = some .start := by
    rw [List.map_append, State.run_append, hrun, hkinds]
    exact hback
  obtain ⟨b, hb⟩ := Parser.accepted_of_run
    (show (Token.mk .endOfInput (.text []) 0 0).kind = .endOfInput from rfl) hall
  exact ⟨tokens ++ [⟨.endOfInput, .text [], 0, 0⟩], b, by rwa [← List.append_assoc]⟩

/-- Behind a token that the state refuses, nothing goes on to a list that is accepted. -/
theorem not_viable_of_refuses {us : List Token} {t : Token} {s : State}
    (hrun : State.start.run (us.map Token.kind) = some s) (hrefuses : s.Refuses t.kind) :
    ¬ Viable (us ++ [t]) := by
  rintro ⟨more, b, hb⟩
  obtain ⟨vs, eof, others, hsplit, heof, hback⟩ := Parser.exists_end_of_accepted hb
  rw [List.append_assoc, List.singleton_append] at hsplit
  have hnone (ws : List Token) : State.start.run ((us ++ t :: ws).map Token.kind) = none := by
    rw [List.map_append, State.run_append, hrun]
    show s.next t.kind >>= _ = none
    rw [hrefuses.1]
    rfl
  have hlast (h : vs = us) (ht : t = eof) : False := by
    subst h ht
    exact hrefuses.2 (Option.some.inj (hrun.symm.trans hback)) heof
  -- the end stands behind the token, or is the token, or stands before it
  rcases List.append_eq_append_iff.mp hsplit with ⟨ws, hvs, htail⟩ | ⟨ws, hus, htail⟩
  · cases ws with
    | nil => exact hlast (by simpa using hvs) (List.cons.inj htail).1
    | cons w ws =>
        obtain ⟨rfl, -⟩ := List.cons.inj htail
        rw [hvs, hnone] at hback
        cases hback
  · cases ws with
    | nil => exact hlast (by simpa using hus.symm) (List.cons.inj htail).1.symm
    | cons w ws =>
        obtain ⟨rfl, -⟩ := List.cons.inj htail
        rw [hus, List.map_append, List.map_cons, heof, State.run_endOfInput] at hrun
        cases hrun

theorem Viable.take {l : List Token} {m n : Nat} (h : Viable (l.take n)) (hmn : m ≤ n) :
    Viable (l.take m) := by
  obtain ⟨more, hmore⟩ : l.take m <+: l.take n := List.take_prefix_take_left hmn
  rw [← hmore] at h
  exact h.of_append

/-- There is only one place where a list of tokens ceases to be viable. -/
theorem viable_take_iff {us more : List Token} {t : Token} (hviable : Viable us)
    (hnot : ¬ Viable (us ++ [t])) (n : Nat) :
    Viable ((us ++ t :: more).take n) ∧ ¬ Viable ((us ++ t :: more).take (n + 1)) ↔
      n = us.length := by
  have hfront : (us ++ t :: more).take us.length = us := List.take_left
  have hnext : (us ++ t :: more).take (us.length + 1) = us ++ [t] := by
    rw [List.take_length_add_append]
    rfl
  constructor
  · rintro ⟨hn, hn'⟩
    rcases Nat.lt_trichotomy n us.length with hlt | heq | hgt
    · rw [← hfront] at hviable
      exact absurd (hviable.take hlt) hn'
    · exact heq
    · exact absurd (hnext ▸ hn.take hgt) hnot
  · rintro rfl
    rw [hfront, hnext]
    exact ⟨hviable, hnot⟩

/-- **A complaint is about the first impossible token**: those before it are the
beginning of a list that is accepted, and with it they are not. There is only one such
place in a list of tokens. What stands behind a parameter declared `void` is complained
about one token late, so there must be none. -/
theorem first_impossible_token {ts : List Token} {eof : Token} (heof : eof.kind = .endOfInput)
    (hvoid : State.NoVoidParameter (ts.map Token.kind)) {e : ParseError}
    (he : parseTokens (ts ++ [eof]) = .error e) :
    ∃ c token k, e = .complaint c token ∧ (ts ++ [eof])[k]? = some token ∧
      ∀ n, Viable ((ts ++ [eof]).take n) ∧ ¬ Viable ((ts ++ [eof]).take (n + 1)) ↔ n = k := by
  rw [Parser.parseTokens_concat] at he
  obtain rfl | ⟨c, s, rest, hsteps, hrefuses, rfl⟩ := Parser.program_refuses he
  · exact absurd he (Parser.program_ne_endless heof ts)
  · obtain ⟨us, rfl, hrun⟩ := hsteps.passed_front heof
    rw [List.map_append] at hvoid
    have hviable := viable_of_run hrun (State.plain_of_run hvoid.of_append hrun)
    have hnot := not_viable_of_refuses hrun hrefuses
    obtain ⟨more, hmore⟩ : ∃ more, rest ++ [eof] = rest.headD eof :: more := by
      cases rest with
      | nil => exact ⟨[], rfl⟩
      | cons t rest => exact ⟨rest ++ [eof], rfl⟩
    rw [List.append_assoc, hmore]
    exact ⟨c, _, us.length, rfl, by simp, viable_take_iff hviable hnot⟩

/-- In `void f;` it is the semicolon: `void f` may go on with a parenthesis. -/
theorem first_impossible_token_void :
    let void : Token := ⟨.kwVoid, .text "void".toList, 1, 1⟩
    let name : Token := ⟨.ident, .text ['f'], 1, 6⟩
    let semi : Token := ⟨.semi, .text [';'], 1, 7⟩
    let eof : Token := ⟨.endOfInput, .text [], 1, 8⟩
    parseTokens [void, name, semi, eof] = .error (.complaint (.voidVariable name.value) semi) ∧
      Viable [void, name] ∧ ¬ Viable [void, name, semi] := by
  intro void name semi eof
  have he : parseTokens ([void, name, semi] ++ [eof]) =
    .error (.complaint (.voidVariable name.value) semi) := rfl
  have hvoid : State.NoVoidParameter ([void, name, semi].map Token.kind) := by
    unfold State.NoVoidParameter
    decide
  obtain ⟨c, token, k, hcomplaint, htoken, hk⟩ := first_impossible_token rfl hvoid he
  cases hcomplaint
  -- the semicolon is the third token and no other
  obtain rfl : k = 2 := by
    rcases k with _ | _ | _ | _ | k
    case succ.succ.zero => rfl
    all_goals simp [void, name, semi, eof] at htoken
  exact ⟨he, (hk 2).mpr rfl⟩

end IttyBitty.Ibcmc
