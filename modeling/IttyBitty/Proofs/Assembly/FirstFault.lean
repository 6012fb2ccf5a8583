import IttyBitty.Proofs.Assembly.Faults

/-!
# Faults that the first pass finds

Reading a line finds its first fault, and reading lines the first line that has
any. Both are followed from what the lines above the current one have left
(`Behind`), which is all that the checks of a line look at besides the line.
-/

namespace IttyBitty.Assembly

/-! ## One line -/

/-- What reading the lines above has left: their labels, and a statement for each
that has one. -/
structure Behind (above : List Text) (a : Assembler) : Prop where
  labels : ∀ label, label ∈ a.labels.map Prod.fst ↔ label ∈ labels above
  size : a.statements.size = (statements above).length
  few : a.statements.size ≤ 65535

theorem Behind.start : Behind [] {} :=
  ⟨fun label => by simp [Assembly.labels], rfl, Nat.zero_le _⟩

theorem labels_append (above below : List Text) :
    labels (above ++ below) = labels above ++ labels below :=
  List.filterMap_append

theorem statements_append (above below : List Text) :
    statements (above ++ below) = statements above ++ statements below := by
  simp only [statements, List.map_append, List.filter_append]

/-- Reading one more line. -/
theorem Behind.snoc {above : List Text} {raw : Text} {a a' : Assembler} (h : Behind above a)
    (hreads : Reads a [raw] a') (hreadable : Readable a.labels a.statements.size [raw]) :
    Behind (above ++ [raw]) a' := by
  refine ⟨fun label => ?_, ?_, ?_⟩
  · rw [hreads.labels, List.map_append, List.map_reverse, map_fst_bindings, labels_append,
      List.mem_append, List.mem_append, List.mem_reverse, h.labels, or_comm]
  · rw [hreads.size, h.size, statements_append, List.length_append]
  · rw [hreads.size]
    exact hreadable.few

variable {above : List Text} {raw : Text} {a : Assembler} {e : Error}

/-- A statement that denotes something is no misfit. -/
theorem Denotes.not_fault {mnemonic : Text} {operands : List Text} {body : Body}
    (h : Denotes (mnemonic :: operands) body) :
    operands.length ≤ 1 ∧ (∀ problem, ¬ Misfit mnemonic operands.head? problem) ∧
      ∀ (op : Op) (problem : Problem), op.mnemonic.toList = mnemonic → op.mode = .shift →
        ¬ BadAmount operands.head? problem := by
  have hlength : operands.length ≤ 1 := by cases h <;> simp
  have hoperands : operands.head?.toList = operands := by
    match operands, hlength with
    | [], _ => rfl
    | [operand], _ => rfl
  have hok := ofTokens_eq_ok_iff.mpr h
  rw [← hoperands] at hok
  refine ⟨hlength, fun problem hmisfit => ?_, fun op problem hop hmode hamount => ?_⟩
  · have herror := ofTokens_eq_error_iff.mpr (.inl hmisfit)
    rw [hok] at herror
    cases herror
  · have herror := ofTokens_eq_error_iff.mpr (.inr ⟨op, hop, hmode, hamount⟩)
    rw [hok] at herror
    cases herror

theorem hasLongAmount_iff :
    HasLongAmount raw ↔ ∃ (op : Op) (operands : List Text),
      statementOf raw = op.mnemonic.toList :: operands ∧ op.mode = .shift ∧
        BadAmount operands.head? .amountTooLong := by
  constructor
  · rintro ⟨op, digits, others, hmode, htokens, hdigits, hlong⟩
    exact ⟨op, digits :: others, htokens, hmode, .tooLong hdigits hlong⟩
  · rintro ⟨op, operands, htokens, hmode, hamount⟩
    cases operands with
    | nil => cases hamount
    | cons digits others =>
        cases hamount with
        | tooLong hdigits hlong => exact ⟨op, digits, others, hmode, htokens, hdigits, hlong⟩

/-- A line that can be read has no fault. -/
theorem Behind.no_fault (h : Behind above a) (hline : (a.readLine (above.length + 1) raw).2 = none)
    (check : Nat) (e : Error) : ¬ LineFault above raw check e := by
  have hreadable := ((readLine_spec _ raw h.few).1).mp hline
  obtain ⟨hnamed, hfresh, hstatement⟩ := (readable_singleton_iff raw h.few).mp hreadable
  have hdenotes : ∀ {mnemonic operands}, statementOf raw = mnemonic :: operands →
      ∃ body, Denotes (mnemonic :: operands) body := by
    intro mnemonic operands htokens
    rcases hstatement with hnil | ⟨-, hbody⟩
    · rw [htokens] at hnil
      cases hnil
    · rwa [htokens] at hbody
  intro hfault
  cases hfault with
  | emptyLabel hlabel => exact hnamed hlabel
  | duplicateLabel hlabel habove => exact hfresh _ hlabel ((h.labels _).mpr habove)
  | tooManyStatements hsome habove =>
      rcases hstatement with hnil | ⟨hlt, -⟩
      · exact hsome hnil
      · rw [← h.size] at habove
        omega
  | surplusArgument htokens =>
      obtain ⟨body, hbody⟩ := hdenotes htokens
      exact absurd hbody.not_fault.1 (by simp)
  | misfit htokens hmisfit =>
      obtain ⟨body, hbody⟩ := hdenotes htokens
      exact hbody.not_fault.2.1 _ hmisfit
  | amount htokens hmode hamount hread =>
      obtain ⟨body, hbody⟩ := hdenotes htokens
      exact hbody.not_fault.2.2 _ _ rfl hmode hamount
  | amountTooLong hlong =>
      obtain ⟨op, operands, htokens, hmode, hamount⟩ := hasLongAmount_iff.mp hlong
      obtain ⟨body, hbody⟩ := hdenotes htokens
      exact hbody.not_fault.2.2 _ _ rfl hmode hamount

theorem Misfit.isAmount {mnemonic : Text} {operand : Option Text} {problem : Problem}
    (h : Misfit mnemonic operand problem) : problem.isAmount = false := by
  cases h <;> rfl

theorem BadAmount.isAmount {operand : Option Text} {problem : Problem}
    (h : BadAmount operand problem) : problem.isAmount = true := by
  cases h <;> rfl

theorem Error.ofProblem_of_not_isAmount {problem : Problem} (h : problem.isAmount = false)
    (number : Nat) (raw : Text) : Error.ofProblem problem number raw = .line problem number raw := by
  have hread : problem ≠ .amountTooLong := by
    rintro rfl
    cases h
  rw [Error.ofProblem, if_neg hread, h]
  rfl

theorem Error.ofProblem_of_isAmount {problem : Problem} (h : problem.isAmount = true)
    (hread : problem ≠ .amountTooLong) (number : Nat) (raw : Text) :
    Error.ofProblem problem number raw = .line problem number [] := by
  rw [Error.ofProblem, if_neg hread, if_pos h]

/-- The last check looks at the first token and its operand. -/
theorem lineFault_last_iff :
    LineFault above raw 4 e ↔ ∃ mnemonic operands problem,
      statementOf raw = mnemonic :: operands ∧
        Body.ofTokens mnemonic operands.head?.toList = .error problem ∧
        e = .ofProblem problem (above.length + 1) raw := by
  constructor
  · intro h
    cases h with
    | misfit htokens hmisfit =>
        refine ⟨_, _, _, htokens, ofTokens_eq_error_iff.mpr (.inl hmisfit), ?_⟩
        rw [Error.ofProblem_of_not_isAmount hmisfit.isAmount]
    | amount htokens hmode hamount hread =>
        refine ⟨_, _, _, htokens, ofTokens_eq_error_iff.mpr (.inr ⟨_, rfl, hmode, hamount⟩), ?_⟩
        rw [Error.ofProblem_of_isAmount hamount.isAmount hread]
    | amountTooLong hlong =>
        obtain ⟨op, operands, htokens, hmode, hamount⟩ := hasLongAmount_iff.mp hlong
        exact ⟨_, _, _, htokens, ofTokens_eq_error_iff.mpr (.inr ⟨_, rfl, hmode, hamount⟩), rfl⟩
  · rintro ⟨mnemonic, operands, problem, htokens, herror, rfl⟩
    rcases ofTokens_eq_error_iff.mp herror with hmisfit | ⟨op, rfl, hmode, hamount⟩
    · rw [Error.ofProblem_of_not_isAmount hmisfit.isAmount]
      exact .misfit htokens hmisfit
    · by_cases hread : problem = .amountTooLong
      · subst hread
        exact .amountTooLong (hasLongAmount_iff.mpr ⟨_, _, htokens, hmode, hamount⟩)
      · rw [Error.ofProblem_of_isAmount hamount.isAmount hread]
        exact .amount htokens hmode hamount hread

/-- Two faults that the same check finds are one. -/
theorem LineFault.unique {check : Nat} {e e' : Error} (h : LineFault above raw check e)
    (h' : LineFault above raw check e') : e = e' := by
  have hlast : ∀ {e e'}, LineFault above raw 4 e → LineFault above raw 4 e' → e = e' := by
    intro e e' h h'
    obtain ⟨mnemonic, operands, problem, htokens, herror, rfl⟩ := lineFault_last_iff.mp h
    obtain ⟨mnemonic', operands', problem', htokens', herror', rfl⟩ := lineFault_last_iff.mp h'
    rw [htokens] at htokens'
    cases htokens'
    rw [herror] at herror'
    cases herror'
    rfl
  cases h with
  | emptyLabel hlabel => cases h'; rfl
  | duplicateLabel hlabel habove =>
      cases h' with
      | duplicateLabel hlabel' habove' =>
          rw [hlabel] at hlabel'
          cases hlabel'
          rfl
  | tooManyStatements hsome habove => cases h'; rfl
  | surplusArgument htokens =>
      cases h' with
      | surplusArgument htokens' =>
          rw [htokens] at htokens'
          cases htokens'
          rfl
  | misfit htokens hmisfit => exact hlast (.misfit htokens hmisfit) h'
  | amount htokens hmode hamount hread => exact hlast (.amount htokens hmode hamount hread) h'
  | amountTooLong hlong => exact hlast (.amountTooLong hlong) h'

theorem FirstFault.unique {e' : Error} (h : FirstFault above raw e)
    (h' : FirstFault above raw e') : e = e' := by
  obtain ⟨check, hfault, hfirst⟩ := h
  obtain ⟨check', hfault', hfirst'⟩ := h'
  obtain rfl := Nat.le_antisymm (hfirst _ _ hfault') (hfirst' _ _ hfault)
  exact hfault.unique hfault'

/-- A fault is the first one if no check before its own finds any. -/
theorem LineFault.first {check : Nat} (h : LineFault above raw check e)
    (hno : ∀ check' < check, ∀ e', ¬ LineFault above raw check' e') :
    FirstFault above raw e :=
  ⟨check, h, fun check' e' h' => Nat.le_of_not_lt fun hlt => hno check' hlt e' h'⟩

/-- An error in the tokens of a statement is the first fault of its line, if nothing is
wrong with the label. -/
theorem firstFault_of_readTokens (hlabel : ∀ check < 2, ∀ e', ¬ LineFault above raw check e')
    (hsize : a.statements.size = (statements above).length)
    (herror : (a.readTokens (above.length + 1) raw (statementOf raw)).2 = some e) :
    FirstFault above raw e := by
  cases htokens : statementOf raw with
  | nil =>
      rw [htokens] at herror
      cases herror
  | cons mnemonic operands =>
      rw [htokens, Assembler.readTokens] at herror
      by_cases hfew : maxStatements ≤ a.statements.size
      · rw [if_pos hfew] at herror
        cases herror
        refine LineFault.first (.tooManyStatements (by simp [htokens]) ?_) hlabel
        rw [← hsize]
        exact hfew
      rw [if_neg hfew] at herror
      have hroom : ∀ check < 3, ∀ e', ¬ LineFault above raw check e' := by
        intro check hcheck e' h'
        by_cases hlt : check < 2
        · exact hlabel check hlt e' h'
        · obtain rfl : check = 2 := by omega
          cases h' with
          | tooManyStatements hsome habove =>
              rw [← hsize] at habove
              exact hfew habove
      cases hbody : Body.ofTokens mnemonic operands with
      | ok body =>
          rw [hbody] at herror
          cases herror
      | error problem =>
          rw [hbody] at herror
          cases herror
          have hlast (hone : operands.head?.toList = operands) :
              FirstFault above raw (.ofProblem problem (above.length + 1) raw) := by
            refine LineFault.first
              (lineFault_last_iff.mpr ⟨_, _, _, htokens, by rwa [hone], rfl⟩) ?_
            intro check hcheck e' h'
            by_cases hlt : check < 3
            · exact hroom check hlt e' h'
            · obtain rfl : check = 3 := by omega
              cases h' with
              | surplusArgument htokens' =>
                  rw [htokens] at htokens'
                  rw [(List.cons.inj htokens').2] at hone
                  cases hone
          rcases operands with _ | ⟨operand, _ | ⟨surplus, more⟩⟩
          · exact hlast rfl
          · exact hlast rfl
          · cases hbody
            exact LineFault.first (.surplusArgument htokens) hroom

/-- An error on a line is its first fault. -/
theorem Behind.firstFault (h : Behind above a)
    (herror : (a.readLine (above.length + 1) raw).2 = some e) : FirstFault above raw e := by
  rw [Assembler.readLine, parse?_eq] at herror
  by_cases hnamed : labelOf raw = some []
  · rw [if_pos hnamed] at herror
    cases herror
    refine LineFault.first (.emptyLabel hnamed) ?_
    intro check hcheck
    exact absurd hcheck (Nat.not_lt_zero check)
  rw [if_neg hnamed] at herror
  have hname : ∀ e', ¬ LineFault above raw 0 e' := by
    intro e' h'
    cases h' with
    | emptyLabel hlabel => exact hnamed hlabel
  rcases bindLabel_eq a (labelOf raw) with ⟨name, hlabel, hmem, hbind⟩ | ⟨hfresh, hbind⟩
  · simp only [hbind] at herror
    cases herror
    refine LineFault.first (.duplicateLabel hlabel ((h.labels _).mp hmem)) ?_
    intro check hcheck
    obtain rfl : check = 0 := by omega
    exact hname
  · simp only [hbind] at herror
    refine firstFault_of_readTokens (a := bound a (labelOf raw)) ?_ h.size herror
    intro check hcheck e' h'
    cases h' with
    | emptyLabel hlabel => exact hnamed hlabel
    | duplicateLabel hlabel habove => exact hfresh _ hlabel ((h.labels _).mpr habove)
    | _ => omega

/-- **Reading a line** finds its first fault. -/
theorem Behind.readLine_eq_some_iff (h : Behind above a) :
    (a.readLine (above.length + 1) raw).2 = some e ↔ FirstFault above raw e := by
  refine ⟨h.firstFault, fun hfault => ?_⟩
  cases hline : (a.readLine (above.length + 1) raw).2 with
  | none =>
      obtain ⟨check, hfault, -⟩ := hfault
      exact absurd hfault (h.no_fault hline check e)
  | some e' => rw [(h.firstFault hline).unique hfault]

/-! ## The first pass -/

theorem faultless_nil (above : List Text) : Faultless above [] := by
  intro mid raw below h
  simp at h

theorem firstFaultIn_cons_of_fault {rest : List Text} {e' : Error}
    (hfault : FirstFault above raw e') :
    FirstFaultIn above (raw :: rest) e ↔ FirstFault above raw e := by
  constructor
  · rintro ⟨mid, raw', below, hraws, hclean, hfirst⟩
    cases mid with
    | nil =>
        obtain ⟨rfl, rfl⟩ := List.cons.inj hraws
        rwa [List.append_nil] at hfirst
    | cons first mid =>
        -- the lines in front of the one found would have a fault
        obtain ⟨rfl, rfl⟩ := List.cons.inj hraws
        obtain ⟨check, hfault, -⟩ := hfault
        rw [← List.append_nil above] at hfault
        exact absurd hfault (hclean [] raw mid rfl check e')
  · intro hfirst
    exact ⟨[], raw, rest, rfl, faultless_nil above, by rwa [List.append_nil]⟩

theorem faultless_cons_iff {rest : List Text} (hclean : ∀ check e, ¬ LineFault above raw check e) :
    Faultless above (raw :: rest) ↔ Faultless (above ++ [raw]) rest := by
  constructor
  · rintro h mid raw' below rfl
    rw [List.append_assoc, List.singleton_append]
    exact h (raw :: mid) raw' below rfl
  · rintro h mid raw' below hraws
    cases mid with
    | nil =>
        obtain ⟨rfl, rfl⟩ := List.cons.inj hraws
        rwa [List.append_nil]
    | cons first mid =>
        obtain ⟨rfl, rfl⟩ := List.cons.inj hraws
        have := h mid raw' below rfl
        rwa [List.append_assoc, List.singleton_append] at this

theorem firstFaultIn_cons_of_clean {rest : List Text}
    (hclean : ∀ check e, ¬ LineFault above raw check e) :
    FirstFaultIn above (raw :: rest) e ↔ FirstFaultIn (above ++ [raw]) rest e := by
  constructor
  · rintro ⟨mid, raw', below, hraws, hmid, hfirst⟩
    cases mid with
    | nil =>
        obtain ⟨rfl, rfl⟩ := List.cons.inj hraws
        obtain ⟨check, hfault, -⟩ := hfirst
        rw [List.append_nil] at hfault
        exact absurd hfault (hclean _ _)
    | cons first mid =>
        obtain ⟨rfl, rfl⟩ := List.cons.inj hraws
        refine ⟨mid, raw', below, rfl, (faultless_cons_iff hclean).mp hmid, ?_⟩
        rwa [List.append_assoc, List.singleton_append]
  · rintro ⟨mid, raw', below, rfl, hmid, hfirst⟩
    refine ⟨raw :: mid, raw', below, rfl, (faultless_cons_iff hclean).mpr hmid, ?_⟩
    rwa [List.append_assoc, List.singleton_append] at hfirst

/-- **Reading lines** finds the first fault of the first line that has one, and ends
well if there is none. -/
theorem Behind.readLines_spec (h : Behind above a) (raws : List Text) :
    ((a.readLines (above.length + 1) raws).2 = none → Faultless above raws) ∧
      ∀ e, (a.readLines (above.length + 1) raws).2 = some e ↔ FirstFaultIn above raws e := by
  induction raws generalizing above a with
  | nil =>
      refine ⟨fun _ => faultless_nil above, fun e => ?_⟩
      constructor
      · intro h
        cases h
      · rintro ⟨mid, raw, below, h, -⟩
        simp at h
  | cons raw rest ih =>
      rw [Assembler.readLines]
      rcases hline : a.readLine (above.length + 1) raw with ⟨a', _ | e'⟩
      · have hnone : (a.readLine (above.length + 1) raw).2 = none := congrArg Prod.snd hline
        obtain ⟨hreadable, hreads⟩ := readLine_spec (above.length + 1) raw h.few
        have hread := hreads hnone
        rw [hline] at hread
        have hrest := ih (h.snoc hread (hreadable.mp hnone))
        rw [List.length_append, List.length_singleton] at hrest
        have hclean := h.no_fault hnone
        simp only [faultless_cons_iff hclean, firstFaultIn_cons_of_clean hclean]
        exact hrest
      · have hfault := h.readLine_eq_some_iff.mp (congrArg Prod.snd hline)
        constructor
        · intro hnone
          cases hnone
        · intro e
          rw [firstFaultIn_cons_of_fault hfault]
          refine ⟨?_, fun hfirst => by rw [hfault.unique hfirst]⟩
          rintro ⟨⟩
          exact hfault

end IttyBitty.Assembly
