import IttyBitty.Proofs.Assembly.Correctness
import IttyBitty.Proofs.Assembly.FirstFault

/-!
# Which error is reported

Only when every line has been read without a fault does a statement that does not
resolve count, and then the first of them. The second pass works on the statements
that the first has noted, each with its line (`Notes`), so that what it reports is
said of the lines again.
-/

namespace IttyBitty.Assembly

variable {above : List Text} {raw : Text} {a : Assembler} {e : Error}

/-! ## The second pass -/

/-- What the first pass notes of lines whose first has the given number: a statement
for each that has one, with the number and the text of its line. -/
inductive Notes : Nat → List Text → List Statement → Prop
  | nil {number : Nat} : Notes number [] []
  | skip {number : Nat} {raw : Text} {rest : List Text} {ss : List Statement}
      (hraw : statementOf raw = []) (hrest : Notes (number + 1) rest ss) :
      Notes number (raw :: rest) ss
  | keep {number : Nat} {raw : Text} {rest : List Text} {ss : List Statement} {body : Body}
      (hraw : Denotes (statementOf raw) body) (hrest : Notes (number + 1) rest ss) :
      Notes number (raw :: rest) (⟨body, number, raw⟩ :: ss)

theorem readTokens_eq_none {a' : Assembler} {number : Nat} {statement : List Text}
    (h : a.readTokens number raw statement = (a', none)) :
    (statement = [] ∧ a' = a.addLine raw) ∨
    ∃ body, Denotes statement body ∧ a' = a.addStatement number raw body := by
  cases statement with
  | nil =>
      cases h
      exact .inl ⟨rfl, rfl⟩
  | cons mnemonic operands =>
      rw [Assembler.readTokens] at h
      by_cases hfew : maxStatements ≤ a.statements.size
      · rw [if_pos hfew] at h
        cases h
      · rw [if_neg hfew] at h
        cases hbody : Body.ofTokens mnemonic operands with
        | error problem =>
            rw [hbody] at h
            cases h
        | ok body =>
            rw [hbody] at h
            cases h
            exact .inr ⟨body, ofTokens_eq_ok_iff.mp hbody, rfl⟩

/-- **A line that is read** is noted behind its label, with its statement if it has one. -/
theorem readLine_eq_none {a' : Assembler} {number : Nat}
    (h : a.readLine number raw = (a', none)) :
    (statementOf raw = [] ∧ a' = (bound a (labelOf raw)).addLine raw) ∨
    ∃ body, Denotes (statementOf raw) body ∧
      a' = (bound a (labelOf raw)).addStatement number raw body := by
  rw [Assembler.readLine, parse?_eq] at h
  by_cases hnamed : labelOf raw = some []
  · rw [if_pos hnamed] at h
    cases h
  · rw [if_neg hnamed] at h
    rcases bindLabel_eq a (labelOf raw) with ⟨name, hlabel, hmem, hbind⟩ | ⟨hfresh, hbind⟩
    · simp only [hbind] at h
      cases h
    · simp only [hbind] at h
      exact readTokens_eq_none h

theorem readLines_notes {a' : Assembler} {number : Nat} {raws : List Text}
    (h : a.readLines number raws = (a', none)) :
    ∃ ss, Notes number raws ss ∧ a'.statements.toList = a.statements.toList ++ ss := by
  induction raws generalizing a number with
  | nil =>
      cases h
      exact ⟨[], .nil, (List.append_nil _).symm⟩
  | cons raw rest ih =>
      rw [Assembler.readLines] at h
      rcases hline : a.readLine number raw with ⟨a₁, _ | e⟩
      · rw [hline] at h
        obtain ⟨ss, hss, hstatements⟩ := ih h
        rcases readLine_eq_none hline with ⟨hnil, rfl⟩ | ⟨body, hbody, rfl⟩
        · exact ⟨ss, .skip hnil hss, hstatements⟩
        · refine ⟨_ :: ss, .keep hbody hss, ?_⟩
          rw [hstatements, Assembler.addStatement, Array.toList_push, List.append_assoc,
            List.singleton_append]
          rfl
      · rw [hline] at h
        cases h

variable {raws : List Text} {bound : Labels}

theorem mem_labels_iff_binds {label : Text} :
    label ∈ labels raws ↔ ∃ index, Binds raws label index := by
  rw [← map_fst_bindings 0, List.mem_map]
  constructor
  · rintro ⟨⟨name, index⟩, hmem, rfl⟩
    exact ⟨index, mem_bindings_zero_iff.mp hmem⟩
  · rintro ⟨index, hbinds⟩
    exact ⟨(label, index), mem_bindings_zero_iff.mpr hbinds, rfl⟩

theorem resolve_eq_error_iff (hbound : ∀ label index, bound.lookup label = some index ↔
      Binds raws label index) {label : Text} {problem : Problem} :
    bound.resolve label = .error problem ↔
      (label ∉ labels raws ∧ problem = .undefinedLabel label) ∨
        ∃ index, Binds raws label index ∧ 4095 < index ∧
          problem = .labelOutOfRange label index := by
  rw [Labels.resolve, mem_labels_iff_binds]
  simp only [← hbound]
  cases hlookup : bound.lookup label with
  | none => simp [eq_comm]
  | some index =>
      simp only [Option.some.injEq]
      by_cases hlt : index < 4096
      · rw [if_pos hlt]
        simp
        omega
      · rw [if_neg hlt]
        simp [eq_comm]
        omega

theorem unresolved_mnemonic_iff {op : Op} {operands : List Text} {problem : Problem} :
    Unresolved raws (op.mnemonic.toList :: operands) problem ↔
      op.mode = .address ∧ ∃ label, operands = [label] ∧
        ((label ∉ labels raws ∧ problem = .undefinedLabel label) ∨
          ∃ index, Binds raws label index ∧ 4095 < index ∧
            problem = .labelOutOfRange label index) := by
  constructor
  · generalize hstatement : op.mnemonic.toList :: operands = statement
    intro h
    cases h with
    | data hdigits => exact absurd (List.cons.inj hstatement).1 (mnemonic_ne_dataDirective op)
    | undefined hmode h =>
        obtain ⟨hname, rfl⟩ := List.cons.inj hstatement
        obtain rfl := mnemonic_injective hname
        exact ⟨hmode, _, rfl, .inl ⟨h, rfl⟩⟩
    | outOfRange hmode hbinds hlarge =>
        obtain ⟨hname, rfl⟩ := List.cons.inj hstatement
        obtain rfl := mnemonic_injective hname
        exact ⟨hmode, _, rfl, .inr ⟨_, hbinds, hlarge, rfl⟩⟩
  · rintro ⟨hmode, label, rfl, ⟨h, rfl⟩ | ⟨index, hbinds, hlarge, rfl⟩⟩
    · exact .undefined hmode h
    · exact .outOfRange hmode hbinds hlarge

theorem unresolved_dataDirective_iff {digits : Text} {problem : Problem} :
    Unresolved raws [dataDirective, digits] problem ↔
      ¬ IsDataWord digits ∧ problem = .malformedData := by
  constructor
  · generalize hstatement : [dataDirective, digits] = statement
    intro h
    cases h with
    | data hdigits =>
        cases hstatement
        exact ⟨hdigits, rfl⟩
    | undefined => exact absurd (List.cons.inj hstatement).1.symm (mnemonic_ne_dataDirective _)
    | outOfRange => exact absurd (List.cons.inj hstatement).1.symm (mnemonic_ne_dataDirective _)
  · rintro ⟨h, rfl⟩
    exact .data h

theorem dataWord_eq_error_iff {digits : Text} {problem : Problem} :
    dataWord digits = .error problem ↔ ¬ IsDataWord digits ∧ problem = .malformedData := by
  have hok : (∃ w, dataWord digits = .ok w) ↔ IsDataWord digits := by
    simp only [dataWord_eq_ok_iff]
    refine ⟨fun ⟨_, h, _⟩ => h, fun h => ⟨BitVec.ofNat 16 (Hex.number digits), h, ?_⟩⟩
    rw [BitVec.toNat_ofNat, Nat.mod_eq_of_lt (Hex.number_lt h.2.1)]
  rw [← hok, dataWord]
  split <;> simp [eq_comm]

/-- **A statement without a word** does not resolve. -/
theorem word_eq_error_iff (hbound : ∀ label index, bound.lookup label = some index ↔
      Binds raws label index) {statement : List Text} {body : Body}
    (h : Denotes statement body) {problem : Problem} :
    body.word bound = .error problem ↔ Unresolved raws statement problem := by
  cases h with
  | data digits =>
      show dataWord digits = .error problem ↔ Unresolved raws [dataDirective, digits] problem
      rw [dataWord_eq_error_iff, unresolved_dataDirective_iff]
  | plain hmode => simp [Body.word, unresolved_mnemonic_iff]
  | shift hmode hdigits => simp [Body.word, unresolved_mnemonic_iff, hmode]
  | @address op hmode label =>
      have hresolve : bound.resolve label = .error problem ↔ _ := resolve_eq_error_iff hbound
      rw [unresolved_mnemonic_iff, Body.word]
      cases hlabel : bound.resolve label <;> simp_all [Except.map]

theorem Unresolved.isAmount {statement : List Text} {problem : Problem}
    (h : Unresolved raws statement problem) : problem.isAmount = false := by
  cases h <;> rfl

theorem firstUnresolved_cons_of_resolved {number : Nat} {rest : List Text}
    (hraw : ∀ problem, ¬ Unresolved raws (statementOf raw) problem) :
    FirstUnresolved raws number (raw :: rest) e ↔
      FirstUnresolved raws (number + 1) rest e := by
  constructor
  · rintro ⟨above, raw', below, problem, hlines, habove, hproblem, rfl⟩
    cases above with
    | nil =>
        obtain ⟨rfl, rfl⟩ := List.cons.inj hlines
        exact absurd hproblem (hraw problem)
    | cons first above =>
        obtain ⟨rfl, rfl⟩ := List.cons.inj hlines
        refine ⟨above, raw', below, problem, rfl, (List.forall_mem_cons.mp habove).2, hproblem, ?_⟩
        rw [List.length_cons, Nat.add_assoc, Nat.add_comm 1]
  · rintro ⟨above, raw', below, problem, rfl, habove, hproblem, rfl⟩
    refine ⟨raw :: above, raw', below, problem, rfl, List.forall_mem_cons.mpr ⟨hraw, habove⟩,
      hproblem, ?_⟩
    rw [List.length_cons, Nat.add_assoc, Nat.add_comm 1]

theorem firstUnresolved_cons_of_unresolved {number : Nat} {rest : List Text}
    {problem : Problem} (hraw : ∀ problem', Unresolved raws (statementOf raw) problem' ↔
      problem = problem') :
    FirstUnresolved raws number (raw :: rest) e ↔ e = .line problem number raw := by
  constructor
  · rintro ⟨above, raw', below, problem', hlines, habove, hproblem, rfl⟩
    cases above with
    | nil =>
        obtain ⟨rfl, rfl⟩ := List.cons.inj hlines
        rw [(hraw problem').mp hproblem]
        rfl
    | cons first above =>
        obtain ⟨rfl, rfl⟩ := List.cons.inj hlines
        exact absurd ((hraw problem).mpr rfl) (habove raw (List.mem_cons_self ..) problem)
  · rintro rfl
    exact ⟨[], raw, rest, problem, rfl, nofun, (hraw problem).mpr rfl, rfl⟩

/-- **The second pass** stops at the first statement that does not resolve. -/
theorem Notes.wordsFrom_eq_some_iff (hbound : ∀ label index, bound.lookup label = some index ↔
      Binds raws label index) {number : Nat} {lines : List Text} {ss : List Statement}
    (h : Notes number lines ss) (done : Array Word) :
    (Assembler.wordsFrom bound done ss).2 = some e ↔ FirstUnresolved raws number lines e := by
  induction h generalizing done with
  | nil =>
      refine ⟨nofun, ?_⟩
      rintro ⟨above, raw, below, problem, hlines, -⟩
      simp at hlines
  | @skip number raw rest ss hraw hrest ih =>
      have hresolved : ∀ problem, ¬ Unresolved raws (statementOf raw) problem := by
        rw [hraw]
        exact nofun
      rw [firstUnresolved_cons_of_resolved hresolved, ih done]
  | @keep number raw rest ss body hraw hrest ih =>
      rw [Assembler.wordsFrom]
      cases hword : body.word bound with
      | ok w =>
          have hresolved : ∀ problem, ¬ Unresolved raws (statementOf raw) problem := by
            intro problem hproblem
            rw [(word_eq_error_iff hbound hraw).mpr hproblem] at hword
            cases hword
          simp only
          rw [firstUnresolved_cons_of_resolved hresolved, ih (done.push w)]
      | error problem =>
          have hunresolved : ∀ problem', Unresolved raws (statementOf raw) problem' ↔
              problem = problem' := by
            intro problem'
            rw [← word_eq_error_iff hbound hraw, hword, Except.error.injEq]
          have hamount := ((hunresolved problem).mpr rfl).isAmount
          rw [firstUnresolved_cons_of_unresolved hunresolved]
          simp only [Error.ofProblem_of_not_isAmount hamount, Option.some.injEq, eq_comm]

/-! ## Both passes -/

theorem FirstFaultIn.not_faultless (h : FirstFaultIn above raws e) :
    ¬ Faultless above raws := by
  obtain ⟨mid, raw, below, hraws, -, check, hfault, -⟩ := h
  exact fun hclean => hclean mid raw below hraws check e hfault

/-- Only an amount that is too long is reported as one. -/
theorem FirstFaultIn.hasLongAmount (h : FirstFaultIn above raws .amountTooLong) :
    ∃ raw ∈ raws, HasLongAmount raw := by
  obtain ⟨mid, raw, below, rfl, -, check, hfault, -⟩ := h
  cases hfault with
  | amountTooLong hlong => exact ⟨raw, by simp, hlong⟩

theorem Reports.hasLongAmount (h : Reports raws .amountTooLong) :
    ∃ raw ∈ raws, HasLongAmount raw := by
  cases h with
  | line h => exact h.hasLongAmount
  | statement _ h =>
      obtain ⟨_, _, _, _, -, -, -, herror⟩ := h
      cases herror

/-- Lines report nothing but problems on lines, too many statements and an amount that is
too long. -/
theorem Reports.ne_unreadable (h : Reports raws e) (fault : Utf8.Fault) :
    e ≠ .unreadable fault := by
  cases h with
  | line h =>
      obtain ⟨mid, raw, below, -, -, check, hfault, -⟩ := h
      cases hfault <;> nofun
  | statement hclean h =>
      obtain ⟨above, raw, below, problem, -, -, -, rfl⟩ := h
      nofun

/-- An amount that is too long is no problem of a line: nothing is said of its line. -/
theorem Reports.ne_amountTooLong {problem : Problem} {number : Nat} {text : Text}
    (h : Reports raws (.line problem number text)) : problem ≠ .amountTooLong := by
  rintro rfl
  rcases h with ⟨mid, raw, below, -, -, check, hfault, -⟩ |
    ⟨-, above, raw, below, problem, -, -, hproblem, herror⟩
  · cases hfault with
    | misfit _ hmisfit => cases hmisfit.isAmount
    | amount _ _ _ hread => exact hread rfl
  · obtain ⟨rfl, -, -⟩ := Error.line.inj herror
    cases hproblem.isAmount

/-- A program that the first pass reads has the error of the second. -/
theorem emit_eq_some_iff (hpass : Assembler.readLines {} 1 raws = (a, none)) :
    a.emit.2 = some e ↔ FirstUnresolved raws 1 raws e := by
  obtain ⟨hreadable, hreads⟩ := readLines_spec (a := {}) 1 (Nat.zero_le _) raws
  rw [hpass] at hreadable hreads
  obtain ⟨ss, hss, hstatements⟩ := readLines_notes hpass
  have hbound : ∀ label index, a.labels.lookup label = some index ↔ Binds raws label index :=
    fun _ _ => lookup_eq_some_iff_binds (hreads rfl) (hreadable.mp rfl).distinct
  have hwords := hss.wordsFrom_eq_some_iff (e := e) hbound #[]
  have hstatements : a.statements.toList = ss := hstatements
  rw [← hwords, Assembler.emit, hstatements]

/-- **The passes together** end in the error that the lines report. -/
theorem ofText_eq_some_iff {t : Text} :
    (Assembler.ofText t).2 = some e ↔ Reports (Text.lines t) e := by
  obtain ⟨hclean, hfault⟩ := Behind.start.readLines_spec (Text.lines t)
  rw [List.length_nil, Nat.zero_add] at hclean hfault
  unfold Assembler.ofText
  rcases hpass : Assembler.readLines {} 1 (Text.lines t) with ⟨a, _ | e'⟩
  · rw [hpass] at hclean
    simp only [emit_eq_some_iff hpass]
    constructor
    · exact .statement (hclean rfl)
    · rintro (h | ⟨-, h⟩)
      · exact absurd (hclean rfl) h.not_faultless
      · exact h
  · rw [hpass] at hfault
    constructor
    · exact fun h => .line ((hfault e).mp h)
    · rintro (h | ⟨hclean, -⟩)
      · exact (hfault e).mpr h
      · exact absurd hclean ((hfault e').mp rfl).not_faultless

/-- **The error of a text** is the one that its lines report, whatever the assembler
has assembled before, and there is no other. One that names no line is of too many statements,
or of an amount that is too long. -/
theorem assemble_reports (assembler : Assembler) (t : Text) :
    (∀ e, (assembler.assemble (.text t)).2 = .error e ↔ Reports (Text.lines t) e) ∧
      (∀ fault, (assembler.assemble (.text t)).2 ≠ .error (.unreadable fault)) ∧
      ((assembler.assemble (.text t)).2 = .error .amountTooLong →
        ∃ raw ∈ Text.lines t, HasLongAmount raw) := by
  have hreports : ∀ e, (assembler.assemble (.text t)).2 = .error e ↔
      Reports (Text.lines t) e := by
    intro e
    rw [← ofText_eq_some_iff, Assembler.assemble, Source.decode]
    rcases htext : Assembler.ofText t with ⟨a, _ | e'⟩ <;> simp [htext]
  exact ⟨hreports, fun fault h => ((hreports _).mp h).ne_unreadable fault rfl,
    fun h => ((hreports _).mp h).hasLongAmount⟩

/-- An amount of five thousand nines and one more is an error of another kind. -/
theorem assemble_nines :
    let text := Op.shiftL.mnemonic.toList ++ ' ' :: List.replicate 5001 '9'
    (∀ p, (Assembler.assemble {} (.text text)).2 ≠ .ok p) ∧
      (∀ problem number raw, (Assembler.assemble {} (.text text)).2 ≠
        .error (.line problem number raw)) ∧
      (Assembler.assemble {} (.text text)).2 ≠ .error .tooManyStatements := by
  intro text
  have herror : (Assembler.assemble {} (.text text)).2 = .error .amountTooLong :=
    assemble_replicate_nine (by decide) {}
  rw [herror]
  exact ⟨nofun, nofun, nofun⟩

end IttyBitty.Assembly
