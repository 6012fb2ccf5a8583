import IttyBitty.Assembly.Assembler
import IttyBitty.Proofs.Text.Hexadecimal
import IttyBitty.Proofs.Text.Splitting
import Mathlib.Data.List.Forall2
import Mathlib.Data.List.TakeDrop
import Mathlib.Data.List.TakeWhile

/-!
# The grammar of assembly programs

What a program is, said of its lines without a word about passes: how a line
falls apart into a label and the tokens of a statement, which tokens denote
which statement, what index a label is bound to, and which words translate the
statements. The second half shows that the assembler reads a single line by
this grammar.
-/

namespace IttyBitty.Assembly

/-! ## Lines -/

/-- The part of a line in front of its first two slashes. -/
def beforeComment : Text → Text
  | [] => []
  | '/' :: '/' :: _ => []
  | c :: rest => c :: beforeComment rest

/-- The tokens of a line. -/
def tokens (raw : Text) : List Text :=
  ((beforeComment raw).splitOnP isBlank).filter fun token => token ≠ []

/-- The label of a line: what stands before the first colon of its first token. -/
def labelOf (raw : Text) : Option Text :=
  match tokens raw with
  | [] => none
  | first :: _ => if ':' ∈ first then some (first.takeWhile (· != ':')) else none

/-- The tokens of the statement on a line. The first one may be glued to the
label. -/
def statementOf (raw : Text) : List Text :=
  match tokens raw with
  | [] => []
  | first :: rest =>
    if ':' ∈ first then
      let glued := (first.dropWhile (· != ':')).tail
      if glued = [] then rest else glued :: rest
    else first :: rest

/-! ## Statements -/

/-- One to four hexadecimal digits. -/
def IsDataWord (digits : Text) : Prop :=
  digits ≠ [] ∧ digits.length ≤ 4 ∧ ∀ c ∈ digits, Hex.isDigit c = true

/-- A run of decimal digits whose value is below sixteen, with no more digits than are read. -/
def IsAmount (digits : Text) : Prop :=
  digits ≠ [] ∧ (∀ c ∈ digits, '0' ≤ c ∧ c ≤ '9') ∧ Decimal.number digits < 16 ∧
    digits.length ≤ 4300

/-- The statement that a list of tokens denotes. -/
inductive Denotes : List Text → Body → Prop
  | data (digits : Text) : Denotes [['d', 'w'], digits] (.data digits)
  | plain {op : Op} (hmode : op.mode = .inherent ∨ op.mode = .selected) :
      Denotes [op.mnemonic.toList] (.plain op)
  | shift {op : Op} (hmode : op.mode = .shift) {digits : Text} (hdigits : IsAmount digits) :
      Denotes [op.mnemonic.toList, digits] (.shift op (Decimal.number digits))
  | address {op : Op} (hmode : op.mode = .address) (label : Text) :
      Denotes [op.mnemonic.toList, label] (.address op label)

/-! ## Programs -/

/-- The statements of some lines, as lists of tokens. -/
def statements (raws : List Text) : List (List Text) :=
  (raws.map statementOf).filter fun statement => statement ≠ []

/-- The labels of some lines. -/
def labels (raws : List Text) : List Text := raws.filterMap labelOf

/-- A label is bound to the number of statements on the lines above it. -/
def Binds (raws : List Text) (label : Text) (index : Nat) : Prop :=
  ∃ above raw below, raws = above ++ raw :: below ∧ labelOf raw = some label ∧
    index = (statements above).length

/-- The lines make a program. -/
structure WellFormed (raws : List Text) : Prop where
  named : [] ∉ labels raws
  distinct : (labels raws).Nodup
  denoted : ∀ statement ∈ statements raws, ∃ body, Denotes statement body
  few : (statements raws).length ≤ 65535
  data : ∀ digits, [['d', 'w'], digits] ∈ statements raws → IsDataWord digits
  resolved : ∀ statement ∈ statements raws, ∀ op label,
    Denotes statement (.address op label) → ∃ index, Binds raws label index ∧ index ≤ 4095

/-- A word translates a statement of the program on some lines. -/
inductive Means (raws : List Text) : Body → Word → Prop
  | data {digits : Text} {w : Word} (hw : w.toNat = Hex.number digits) :
      Means raws (.data digits) w
  | plain {op : Op} {w : Word} (hw : Instruction.decode w = { op }) :
      Means raws (.plain op) w
  | shift {op : Op} {amount : Nat} {w : Word}
      (hw : Instruction.decode w = { op, operand := amount }) :
      Means raws (.shift op amount) w
  | address {op : Op} {label : Text} {index : Nat} {w : Word}
      (hbinds : Binds raws label index)
      (hw : Instruction.decode w = { op, operand := index }) :
      Means raws (.address op label) w

/-- The program has one word for each statement, in order, and the labels of the
lines. -/
structure Translates (raws : List Text) (p : Program) : Prop where
  words : List.Forall₂ (fun statement w => ∃ body, Denotes statement body ∧ Means raws body w)
    (statements raws) p.words
  labels : ∀ label index, p.labels.lookup label = some index ↔ Binds raws label index

/-! ## The assembler on one line -/

private theorem foldr_consCode (raw : Text) :
    raw.foldr consCode ([], false) = (beforeComment raw, raw.head? == some '/') := by
  induction raw with
  | nil => rfl
  | cons c rest ih =>
      rw [List.foldr_cons, ih, consCode]
      by_cases hc : c = '/'
      · subst hc
        match rest with
        | [] => rfl
        | d :: rest =>
            by_cases hd : d = '/'
            · subst hd
              rfl
            · simp [beforeComment, hd]
      · simp [beforeComment, hc]

theorem code_eq_beforeComment (raw : Text) : code raw = beforeComment raw := by
  rw [code, foldr_consCode]

theorem words_code (raw : Text) : Text.words (code raw) = tokens raw := by
  rw [code_eq_beforeComment, Text.words_eq_filter_splitOnP, tokens]

/-- **A line is read as its label and its statement**, unless its label is empty. -/
theorem parse?_eq (raw : Text) :
    Line.parse? raw =
      if labelOf raw = some [] then none else some ⟨labelOf raw, statementOf raw⟩ := by
  rw [Line.parse?, words_code, labelOf, statementOf]
  cases tokens raw with
  | nil => rfl
  | cons first rest =>
      simp only [Line.ofWords?, List.span_eq_takeWhile_dropWhile]
      by_cases hcolon : ':' ∈ first
      · obtain ⟨name, glued, rfl, hname⟩ := List.eq_append_cons_of_mem hcolon
        have hbefore : ∀ c ∈ name, (c != ':') = true := by
          intro c hc
          rw [bne_iff_ne]
          rintro rfl
          exact hname hc
        rw [List.takeWhile_append_of_pos hbefore, List.dropWhile_append_of_pos hbefore,
          if_pos hcolon, if_pos hcolon]
        cases name <;> cases glued <;> simp
      · have hclean : ∀ c ∈ first, (c != ':') = true := by
          intro c hc
          rw [bne_iff_ne]
          rintro rfl
          exact hcolon hc
        rw [List.dropWhile_eq_nil_iff.mpr hclean, if_neg hcolon, if_neg hcolon]
        rfl

/-! ## The assembler on one statement -/

theorem ofMnemonic?_eq_some_iff {name : Text} {op : Op} :
    Op.ofMnemonic? name = some op ↔ op.mnemonic.toList = name := by
  constructor
  · intro h
    have := List.find?_some h
    simpa using this
  · rintro rfl
    exact Op.ofMnemonic?_mnemonic op

theorem mnemonic_ne_dataDirective (op : Op) : op.mnemonic.toList ≠ dataDirective := by
  cases op <;> decide

theorem shiftAmount_malformed {digits : Text}
    (h : digits = [] ∨ ∃ c ∈ digits, ¬ ('0' ≤ c ∧ c ≤ '9')) :
    shiftAmount digits = .error .malformedAmount := by
  rw [shiftAmount, if_pos]
  obtain rfl | ⟨c, hc, hno⟩ := h
  · rfl
  · have hall : digits.all Decimal.isDigit = false :=
      List.all_eq_false.mpr ⟨c, hc, by simpa [Decimal.isDigit] using hno⟩
    rw [hall, Bool.not_false, Bool.or_true]

/-- A run of digits is checked for its length before it is for its value. -/
theorem shiftAmount_digits {digits : Text} (hne : digits ≠ [])
    (hdigits : ∀ c ∈ digits, '0' ≤ c ∧ c ≤ '9') :
    shiftAmount digits =
      if 4300 < digits.length then .error .amountTooLong
      else if 16 ≤ Decimal.number digits then .error .amountTooLarge
      else .ok (Decimal.number digits) := by
  have hall : digits.all Decimal.isDigit = true :=
    List.all_eq_true.mpr fun c hc => by simpa [Decimal.isDigit] using hdigits c hc
  rw [shiftAmount, if_neg (by simp [hall, hne])]
  by_cases hlong : 4300 < digits.length
  · rw [if_pos hlong, Decimal.number?_of_lt hlong]
  · rw [if_neg hlong, Decimal.number?_of_le (Nat.le_of_not_lt hlong)]

theorem shiftAmount_eq_ok_iff {digits : Text} {n : Nat} :
    shiftAmount digits = .ok n ↔ IsAmount digits ∧ n = Decimal.number digits := by
  rw [IsAmount]
  by_cases hbad : digits = [] ∨ ∃ c ∈ digits, ¬ ('0' ≤ c ∧ c ≤ '9')
  · rw [shiftAmount_malformed hbad]
    refine ⟨nofun, ?_⟩
    rintro ⟨⟨hne, hdigits, -⟩, -⟩
    obtain rfl | ⟨c, hc, hno⟩ := hbad
    · exact absurd rfl hne
    · exact absurd (hdigits c hc) hno
  · have hne : digits ≠ [] := fun h => hbad (.inl h)
    have hdigits : ∀ c ∈ digits, '0' ≤ c ∧ c ≤ '9' :=
      fun c hc => Classical.byContradiction fun hno => hbad (.inr ⟨c, hc, hno⟩)
    rw [shiftAmount_digits hne hdigits]
    by_cases hlong : 4300 < digits.length
    · rw [if_pos hlong]
      exact ⟨nofun, fun h => absurd h.1.2.2.2 (Nat.not_le_of_lt hlong)⟩
    rw [if_neg hlong]
    by_cases hlarge : 16 ≤ Decimal.number digits
    · rw [if_pos hlarge]
      exact ⟨nofun, fun h => absurd h.1.2.2.1 (Nat.not_lt_of_le hlarge)⟩
    · rw [if_neg hlarge, Except.ok.injEq]
      refine ⟨fun h => ⟨⟨hne, hdigits, by omega, by omega⟩, h.symm⟩, fun h => h.2.symm⟩

theorem dataWord_eq_ok_iff {digits : Text} {w : Word} :
    dataWord digits = .ok w ↔ IsDataWord digits ∧ w.toNat = Hex.number digits := by
  have hshape : (digits.isEmpty || 4 < digits.length || !digits.all Hex.isDigit) = true ↔
      ¬ IsDataWord digits := by
    simp [IsDataWord, Classical.or_iff_not_imp_left]
  rw [dataWord]
  by_cases hdigits : IsDataWord digits
  · rw [if_neg (by rw [hshape]; exact not_not_intro hdigits)]
    have hlt := Hex.number_lt hdigits.2.1
    constructor
    · intro h
      cases h
      exact ⟨hdigits, by rw [BitVec.toNat_ofNat, Nat.mod_eq_of_lt hlt]⟩
    · rintro ⟨-, hw⟩
      rw [← hw, BitVec.ofNat_toNat, BitVec.setWidth_eq]
  · rw [if_pos (hshape.mpr hdigits)]
    exact ⟨nofun, fun h => absurd h.1 hdigits⟩

theorem mnemonic_injective {op op' : Op} (h : op'.mnemonic.toList = op.mnemonic.toList) :
    op' = op := by
  have hfound := ofMnemonic?_eq_some_iff.mpr h
  rw [Op.ofMnemonic?_mnemonic] at hfound
  exact (Option.some.inj hfound).symm

/-- What the name of an operation can denote with the tokens behind it. -/
theorem denotes_mnemonic_iff {op : Op} {operands : List Text} {body : Body} :
    Denotes (op.mnemonic.toList :: operands) body ↔
      ((op.mode = .inherent ∨ op.mode = .selected) ∧ operands = [] ∧ body = .plain op) ∨
      (op.mode = .shift ∧ ∃ digits, operands = [digits] ∧ IsAmount digits ∧
        body = .shift op (Decimal.number digits)) ∨
      (op.mode = .address ∧ ∃ label, operands = [label] ∧ body = .address op label) := by
  constructor
  · generalize hstatement : op.mnemonic.toList :: operands = statement
    intro h
    cases h with
    | data digits =>
        exact absurd (List.cons.inj hstatement).1 (mnemonic_ne_dataDirective op)
    | plain hmode =>
        obtain ⟨hname, rfl⟩ := List.cons.inj hstatement
        obtain rfl := mnemonic_injective hname
        exact .inl ⟨hmode, rfl, rfl⟩
    | shift hmode hdigits =>
        obtain ⟨hname, rfl⟩ := List.cons.inj hstatement
        obtain rfl := mnemonic_injective hname
        exact .inr (.inl ⟨hmode, _, rfl, hdigits, rfl⟩)
    | address hmode label =>
        obtain ⟨hname, rfl⟩ := List.cons.inj hstatement
        obtain rfl := mnemonic_injective hname
        exact .inr (.inr ⟨hmode, _, rfl, rfl⟩)
  · rintro (⟨hmode, rfl, rfl⟩ | ⟨hmode, digits, rfl, hdigits, rfl⟩ | ⟨hmode, label, rfl, rfl⟩)
    · exact .plain hmode
    · exact .shift hmode hdigits
    · exact .address hmode label

/-- What the name of the data directive can denote. -/
theorem denotes_dataDirective_iff {operands : List Text} {body : Body} :
    Denotes (dataDirective :: operands) body ↔
      ∃ digits, operands = [digits] ∧ body = .data digits := by
  constructor
  · generalize hstatement : dataDirective :: operands = statement
    intro h
    cases h with
    | data digits => exact ⟨digits, (List.cons.inj hstatement).2, rfl⟩
    | plain hmode =>
        exact absurd (List.cons.inj hstatement).1.symm (mnemonic_ne_dataDirective _)
    | shift hmode hdigits =>
        exact absurd (List.cons.inj hstatement).1.symm (mnemonic_ne_dataDirective _)
    | address hmode label =>
        exact absurd (List.cons.inj hstatement).1.symm (mnemonic_ne_dataDirective _)
  · rintro ⟨digits, rfl, rfl⟩
    exact .data digits

theorem Denotes.ne_nil {statement : List Text} {body : Body} (h : Denotes statement body) :
    statement ≠ [] := by
  cases h <;> exact List.cons_ne_nil _ _

/-- Only the name of the directive or of an operation denotes anything. -/
theorem Denotes.name {mnemonic : Text} {operands : List Text} {body : Body}
    (h : Denotes (mnemonic :: operands) body) :
    mnemonic = dataDirective ∨ ∃ op : Op, op.mnemonic.toList = mnemonic := by
  cases h with
  | data digits => exact .inl rfl
  | plain hmode => exact .inr ⟨_, rfl⟩
  | shift hmode hdigits => exact .inr ⟨_, rfl⟩
  | address hmode label => exact .inr ⟨_, rfl⟩

theorem ofOp_eq_ok_iff {op : Op} {operand : Option Text} {body : Body} :
    Body.ofOp op op.mnemonic.toList operand = .ok body ↔
      Denotes (op.mnemonic.toList :: operand.toList) body := by
  rw [denotes_mnemonic_iff]
  unfold Body.ofOp
  cases hmode : op.mode with
  | inherent => cases operand <;> simp [eq_comm]
  | selected => cases operand <;> simp [eq_comm]
  | address => cases operand <;> simp [eq_comm]
  | shift =>
      cases operand with
      | none => simp
      | some digits =>
          cases hamount : shiftAmount digits with
          | error problem =>
              have hnot : ¬ IsAmount digits := fun h => by
                have := shiftAmount_eq_ok_iff.mpr ⟨h, rfl⟩
                rw [hamount] at this
                cases this
              simp [Except.map, hamount, hnot]
          | ok n =>
              obtain ⟨hdigits, rfl⟩ := shiftAmount_eq_ok_iff.mp hamount
              simp [Except.map, hamount, hdigits, eq_comm]

/-- A first token with no more than one behind it. -/
private theorem ofTokens_short {mnemonic : Text} (operand : Option Text) {body : Body} :
    (if mnemonic = dataDirective then
        match operand with
        | none => .error .missingData
        | some digits => .ok (.data digits)
      else
        match Op.ofMnemonic? mnemonic with
        | none => .error (.unknownInstruction mnemonic)
        | some op => Body.ofOp op mnemonic operand) = Except.ok body ↔
      Denotes (mnemonic :: operand.toList) body := by
  by_cases hdata : mnemonic = dataDirective
  · rw [if_pos hdata, hdata, denotes_dataDirective_iff]
    cases operand <;> simp [eq_comm]
  · rw [if_neg hdata]
    cases hop : Op.ofMnemonic? mnemonic with
    | some op =>
        obtain rfl := ofMnemonic?_eq_some_iff.mp hop
        exact ofOp_eq_ok_iff
    | none =>
        refine ⟨nofun, fun h => ?_⟩
        obtain hname | ⟨op, hname⟩ := h.name
        · exact absurd hname hdata
        · rw [ofMnemonic?_eq_some_iff.mpr hname] at hop
          cases hop

/-- **The tokens of a statement are read as what they denote.** -/
theorem ofTokens_eq_ok_iff {mnemonic : Text} {operands : List Text} {body : Body} :
    Body.ofTokens mnemonic operands = .ok body ↔ Denotes (mnemonic :: operands) body := by
  match operands with
  | [] => exact ofTokens_short none
  | [operand] => exact ofTokens_short (some operand)
  | _ :: _ :: _ => exact ⟨nofun, nofun⟩

/-- A statement denotes one thing at most. -/
theorem Denotes.unique {statement : List Text} {b b' : Body} (h : Denotes statement b)
    (h' : Denotes statement b') : b = b' := by
  cases statement with
  | nil => cases h
  | cons mnemonic operands =>
      have hok := ofTokens_eq_ok_iff.mpr h
      rw [ofTokens_eq_ok_iff.mpr h'] at hok
      exact (Except.ok.inj hok).symm

end IttyBitty.Assembly
