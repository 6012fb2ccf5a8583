import IttyBitty.Proofs.Assembly.Amounts
import IttyBitty.Proofs.Assembly.FirstPass

/-!
# What is wrong with a program

The faults of assembly programs, each said of the lines alone and without
regard to any other fault. Those that a line has by itself, or because of the
lines above it, are ranked by the order in which a line is checked. The second
half shows that the assembler finds the faults of a single statement.
-/

namespace IttyBitty.Assembly

/-! ## Faults of a statement -/

/-- What is wrong with a shift amount. One that is too long is so whatever its value. -/
inductive BadAmount : Option Text → Problem → Prop
  | missing : BadAmount none .missingAmount
  | malformed {digits : Text} (h : digits = [] ∨ ∃ c ∈ digits, ¬ ('0' ≤ c ∧ c ≤ '9')) :
      BadAmount (some digits) .malformedAmount
  | tooLong {digits : Text} (hdigits : ∀ c ∈ digits, '0' ≤ c ∧ c ≤ '9')
      (hlong : 4300 < digits.length) : BadAmount (some digits) .amountTooLong
  | tooLarge {digits : Text} (hne : digits ≠ []) (hdigits : ∀ c ∈ digits, '0' ≤ c ∧ c ≤ '9')
      (hshort : digits.length ≤ 4300) (hlarge : 16 ≤ Decimal.number digits) :
      BadAmount (some digits) .amountTooLarge

/-- What is wrong with the first token of a statement and its operand, shift amounts
apart. -/
inductive Misfit : Text → Option Text → Problem → Prop
  | missingData : Misfit ['d', 'w'] none .missingData
  | unknownInstruction {mnemonic : Text} {operand : Option Text}
      (hdata : mnemonic ≠ ['d', 'w']) (hop : ∀ op : Op, op.mnemonic.toList ≠ mnemonic) :
      Misfit mnemonic operand (.unknownInstruction mnemonic)
  | unexpectedOperand {op : Op} (hmode : op.mode = .inherent ∨ op.mode = .selected)
      (operand : Text) :
      Misfit op.mnemonic.toList (some operand) (.unexpectedOperand op.mnemonic.toList)
  | missingOperand {op : Op} (hmode : op.mode = .address) :
      Misfit op.mnemonic.toList none (.missingOperand op.mnemonic.toList)

/-! ## Faults of a line -/

/-- A line below others has a fault. The number says when the check that finds it is
made; a wrong shift amount is reported without the text of the line, and one that is too
long without the line. -/
inductive LineFault (above : List Text) (raw : Text) : Nat → Error → Prop
  | emptyLabel (h : labelOf raw = some []) :
      LineFault above raw 0 (.line .emptyLabel (above.length + 1) raw)
  | duplicateLabel {label : Text} (h : labelOf raw = some label) (habove : label ∈ labels above) :
      LineFault above raw 1 (.line (.duplicateLabel label) (above.length + 1) raw)
  | tooManyStatements (h : statementOf raw ≠ []) (habove : 65535 ≤ (statements above).length) :
      LineFault above raw 2 .tooManyStatements
  | surplusArgument {mnemonic operand surplus : Text} {others : List Text}
      (h : statementOf raw = mnemonic :: operand :: surplus :: others) :
      LineFault above raw 3 (.line (.surplusArgument surplus) (above.length + 1) raw)
  | misfit {mnemonic : Text} {operands : List Text} {problem : Problem}
      (h : statementOf raw = mnemonic :: operands)
      (hmisfit : Misfit mnemonic operands.head? problem) :
      LineFault above raw 4 (.line problem (above.length + 1) raw)
  | amount {op : Op} {operands : List Text} {problem : Problem}
      (h : statementOf raw = op.mnemonic.toList :: operands) (hmode : op.mode = .shift)
      (hamount : BadAmount operands.head? problem) (hread : problem ≠ .amountTooLong) :
      LineFault above raw 4 (.line problem (above.length + 1) [])
  | amountTooLong (h : HasLongAmount raw) : LineFault above raw 4 .amountTooLong

/-- The fault that is found first on a line. -/
def FirstFault (above : List Text) (raw : Text) (e : Error) : Prop :=
  ∃ check, LineFault above raw check e ∧
    ∀ check' e', LineFault above raw check' e' → check ≤ check'

/-- No line has a fault, where the lines stand below others. -/
def Faultless (above raws : List Text) : Prop :=
  ∀ mid raw below, raws = mid ++ raw :: below → ∀ check e, ¬ LineFault (above ++ mid) raw check e

/-- The first fault of the first line that has one, where the lines stand below
others. -/
def FirstFaultIn (above raws : List Text) (e : Error) : Prop :=
  ∃ mid raw below, raws = mid ++ raw :: below ∧ Faultless above mid ∧
    FirstFault (above ++ mid) raw e

/-! ## Faults of labels and data -/

/-- What is wrong with a statement of a program whose lines have no fault: its data
word is none, or its label has no address. -/
inductive Unresolved (raws : List Text) : List Text → Problem → Prop
  | data {digits : Text} (h : ¬ IsDataWord digits) :
      Unresolved raws [['d', 'w'], digits] .malformedData
  | undefined {op : Op} (hmode : op.mode = .address) {label : Text} (h : label ∉ labels raws) :
      Unresolved raws [op.mnemonic.toList, label] (.undefinedLabel label)
  | outOfRange {op : Op} (hmode : op.mode = .address) {label : Text} {index : Nat}
      (hbinds : Binds raws label index) (hlarge : 4095 < index) :
      Unresolved raws [op.mnemonic.toList, label] (.labelOutOfRange label index)

/-- The problem of the first line whose statement does not resolve, where the first of
the lines has the given number. -/
def FirstUnresolved (raws : List Text) (number : Nat) (lines : List Text) (e : Error) : Prop :=
  ∃ above raw below problem, lines = above ++ raw :: below ∧
    (∀ raw' ∈ above, ∀ problem', ¬ Unresolved raws (statementOf raw') problem') ∧
    Unresolved raws (statementOf raw) problem ∧ e = .line problem (number + above.length) raw

/-- The error that a program has: the first fault of the first line with any or,
where no line has one, that of the first statement that does not resolve. -/
inductive Reports (raws : List Text) (e : Error) : Prop
  | line (h : FirstFaultIn [] raws e)
  | statement (hclean : Faultless [] raws) (h : FirstUnresolved raws 1 raws e)

/-! ## The assembler on one statement -/

theorem shiftAmount_eq_error_iff {digits : Text} {problem : Problem} :
    shiftAmount digits = .error problem ↔ BadAmount (some digits) problem := by
  by_cases hbad : digits = [] ∨ ∃ c ∈ digits, ¬ ('0' ≤ c ∧ c ≤ '9')
  · rw [shiftAmount_malformed hbad, Except.error.injEq]
    have hnot (hne : digits ≠ []) (hdigits : ∀ c ∈ digits, '0' ≤ c ∧ c ≤ '9') : False := by
      obtain rfl | ⟨c, hc, hno⟩ := hbad
      · exact hne rfl
      · exact hno (hdigits c hc)
    constructor
    · rintro rfl
      exact .malformed hbad
    · intro h
      cases h with
      | malformed => rfl
      | tooLong hdigits hlong =>
          exact absurd hdigits (hnot (List.ne_nil_of_length_pos (Nat.zero_lt_of_lt hlong)))
      | tooLarge hne hdigits => exact absurd hdigits (hnot hne)
  · have hne : digits ≠ [] := fun h => hbad (.inl h)
    have hdigits : ∀ c ∈ digits, '0' ≤ c ∧ c ≤ '9' :=
      fun c hc => Classical.byContradiction fun hno => hbad (.inr ⟨c, hc, hno⟩)
    rw [shiftAmount_digits hne hdigits]
    by_cases hlong : 4300 < digits.length
    · rw [if_pos hlong, Except.error.injEq]
      constructor
      · rintro rfl
        exact .tooLong hdigits hlong
      · intro h
        cases h with
        | malformed h => exact absurd h hbad
        | tooLong => rfl
        | tooLarge _ _ hshort => omega
    rw [if_neg hlong]
    by_cases hlarge : 16 ≤ Decimal.number digits
    · rw [if_pos hlarge, Except.error.injEq]
      constructor
      · rintro rfl
        exact .tooLarge hne hdigits (Nat.le_of_not_lt hlong) hlarge
      · intro h
        cases h with
        | malformed h => exact absurd h hbad
        | tooLong _ h => exact absurd h hlong
        | tooLarge => rfl
    · rw [if_neg hlarge]
      refine ⟨nofun, fun h => ?_⟩
      cases h with
      | malformed h => exact absurd h hbad
      | tooLong _ h => exact absurd h hlong
      | tooLarge _ _ _ h => exact absurd h hlarge

theorem misfit_mnemonic_iff {op : Op} {operand : Option Text} {problem : Problem} :
    Misfit op.mnemonic.toList operand problem ↔
      ((op.mode = .inherent ∨ op.mode = .selected) ∧ operand.isSome ∧
        problem = .unexpectedOperand op.mnemonic.toList) ∨
      (op.mode = .address ∧ operand = none ∧
        problem = .missingOperand op.mnemonic.toList) := by
  constructor
  · generalize hmnemonic : op.mnemonic.toList = mnemonic
    intro h
    cases h with
    | missingData => exact absurd hmnemonic (mnemonic_ne_dataDirective op)
    | unknownInstruction hdata hop => exact absurd hmnemonic (hop op)
    | unexpectedOperand hmode operand =>
        obtain rfl := mnemonic_injective hmnemonic
        exact .inl ⟨hmode, rfl, rfl⟩
    | missingOperand hmode =>
        obtain rfl := mnemonic_injective hmnemonic
        exact .inr ⟨hmode, rfl, rfl⟩
  · rintro (⟨hmode, hoperand, rfl⟩ | ⟨hmode, rfl, rfl⟩)
    · obtain ⟨operand, rfl⟩ := Option.isSome_iff_exists.mp hoperand
      exact .unexpectedOperand hmode operand
    · exact .missingOperand hmode

theorem misfit_dataDirective_iff {operand : Option Text} {problem : Problem} :
    Misfit dataDirective operand problem ↔ operand = none ∧ problem = .missingData := by
  constructor
  · generalize hmnemonic : dataDirective = mnemonic
    intro h
    cases h with
    | missingData => exact ⟨rfl, rfl⟩
    | unknownInstruction hdata hop => exact absurd hmnemonic.symm hdata
    | unexpectedOperand hmode operand =>
        exact absurd hmnemonic.symm (mnemonic_ne_dataDirective _)
    | missingOperand hmode => exact absurd hmnemonic.symm (mnemonic_ne_dataDirective _)
  · rintro ⟨rfl, rfl⟩
    exact .missingData

theorem ofOp_eq_error_iff {op : Op} {operand : Option Text} {problem : Problem} :
    Body.ofOp op op.mnemonic.toList operand = .error problem ↔
      Misfit op.mnemonic.toList operand problem ∨
        op.mode = .shift ∧ BadAmount operand problem := by
  rw [misfit_mnemonic_iff]
  unfold Body.ofOp
  cases hmode : op.mode with
  | inherent => cases operand <;> simp [eq_comm]
  | selected => cases operand <;> simp [eq_comm]
  | address => cases operand <;> simp [eq_comm]
  | shift =>
      cases operand with
      | none =>
          simp only [reduceCtorEq, or_self, false_and, false_or, true_and, Except.error.injEq]
          constructor
          · rintro rfl
            exact .missing
          · rintro ⟨⟩
            rfl
      | some digits =>
          rw [← shiftAmount_eq_error_iff]
          cases hamount : shiftAmount digits <;> simp [Except.map, hamount]

/-- **What is wrong with a first token and its operand** is what the assembler says. -/
theorem ofTokens_eq_error_iff {mnemonic : Text} {operand : Option Text} {problem : Problem} :
    Body.ofTokens mnemonic operand.toList = .error problem ↔
      Misfit mnemonic operand problem ∨
        ∃ op : Op, op.mnemonic.toList = mnemonic ∧ op.mode = .shift ∧
          BadAmount operand problem := by
  have hshort : Body.ofTokens mnemonic operand.toList =
      if mnemonic = dataDirective then
        operand.elim (.error .missingData) fun digits => .ok (.data digits)
      else
        (Op.ofMnemonic? mnemonic).elim (.error (.unknownInstruction mnemonic))
          fun op => Body.ofOp op mnemonic operand := by
    cases operand <;> cases hop : Op.ofMnemonic? mnemonic <;> simp [Body.ofTokens, hop]
  rw [hshort]
  by_cases hdata : mnemonic = dataDirective
  · subst hdata
    have hno : ¬ ∃ op : Op, op.mnemonic.toList = dataDirective ∧ op.mode = .shift ∧
        BadAmount operand problem := by
      rintro ⟨op, hop, -⟩
      exact mnemonic_ne_dataDirective op hop
    rw [if_pos rfl, misfit_dataDirective_iff, or_iff_left hno]
    cases operand <;> simp [eq_comm]
  · rw [if_neg hdata]
    cases hop : Op.ofMnemonic? mnemonic with
    | none =>
        have hno : ∀ op : Op, op.mnemonic.toList ≠ mnemonic := by
          intro op h
          rw [ofMnemonic?_eq_some_iff.mpr h] at hop
          cases hop
        rw [Option.elim_none, Except.error.injEq]
        constructor
        · rintro rfl
          exact .inl (.unknownInstruction hdata hno)
        · rintro (h | ⟨op, h, -⟩)
          · cases h with
            | missingData => exact absurd rfl hdata
            | unknownInstruction => rfl
            | unexpectedOperand => exact absurd rfl (hno _)
            | missingOperand => exact absurd rfl (hno _)
          · exact absurd h (hno op)
    | some op =>
        obtain rfl := ofMnemonic?_eq_some_iff.mp hop
        rw [Option.elim_some, ofOp_eq_error_iff]
        refine or_congr_right ⟨fun h => ⟨op, rfl, h⟩, ?_⟩
        rintro ⟨op', hop', h⟩
        rwa [mnemonic_injective hop'] at h

end IttyBitty.Assembly
