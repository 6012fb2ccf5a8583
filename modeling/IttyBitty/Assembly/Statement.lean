import IttyBitty.Assembly.Error
import IttyBitty.Instruction.Codec
import IttyBitty.Text.Decimal

/-!
# Assembly statements

A statement takes one word of the program. It is a data word, written after `dw`, or an operation
with what its mode asks for: nothing, a decimal shift amount, or the name of a label. Data words
and labels are kept as they were written until all labels are known.
-/

namespace IttyBitty.Assembly

/-- What a statement says. -/
inductive Body
  | data (digits : Text)
  | plain (op : Op)
  | shift (op : Op) (amount : Nat)
  | address (op : Op) (label : Text)
  deriving DecidableEq, Repr

/-- A statement with the number and the text of its line. -/
structure Statement where
  body : Body
  number : Nat
  raw : Text
  deriving DecidableEq, Repr

/-- The name of the data directive. -/
def dataDirective : Text := ['d', 'w']

/-- A shift amount: a run of ASCII digits that can be read and has a value below sixteen. -/
def shiftAmount (t : Text) : Except Problem Nat :=
  if t.isEmpty || !t.all Decimal.isDigit then .error .malformedAmount
  else
    match Decimal.number? t with
    | none => .error .amountTooLong
    | some n => if 16 ≤ n then .error .amountTooLarge else .ok n

namespace Body

/-- The statement of an operation. -/
def ofOp (op : Op) (mnemonic : Text) (operand : Option Text) : Except Problem Body :=
  match op.mode, operand with
  | .inherent, none | .selected, none => .ok (.plain op)
  | .inherent, some _ | .selected, some _ => .error (.unexpectedOperand mnemonic)
  | .shift, none => .error .missingAmount
  | .shift, some t => (shiftAmount t).map (.shift op)
  | .address, none => .error (.missingOperand mnemonic)
  | .address, some label => .ok (.address op label)

/-- The statement of a first token and the tokens after it. A second operand is refused before
anything else is looked at. -/
def ofTokens (mnemonic : Text) : List Text → Except Problem Body
  | _ :: surplus :: _ => .error (.surplusArgument surplus)
  | operands =>
    if mnemonic = dataDirective then
      match operands.head? with
      | none => .error .missingData
      | some digits => .ok (.data digits)
    else
      match Op.ofMnemonic? mnemonic with
      | none => .error (.unknownInstruction mnemonic)
      | some op => ofOp op mnemonic operands.head?

end Body

/-! ## Words -/

/-- A data word: one to four hexadecimal digits. -/
def dataWord (digits : Text) : Except Problem Word :=
  if digits.isEmpty || 4 < digits.length || !digits.all Hex.isDigit then .error .malformedData
  else .ok (BitVec.ofNat 16 (Hex.number digits))

/-- The labels defined so far with the indices of their statements, latest first. -/
abbrev Labels := List (Text × Nat)

/-- The address that a label stands for. -/
def Labels.resolve (labels : Labels) (label : Text) : Except Problem Nat :=
  match labels.lookup label with
  | none => .error (.undefinedLabel label)
  | some index => if index < 4096 then .ok index else .error (.labelOutOfRange label index)

/-- The word of a statement. -/
def Body.word (labels : Labels) : Body → Except Problem Word
  | .data digits => dataWord digits
  | .plain op => .ok (Instruction.encode { op })
  | .shift op amount => .ok (Instruction.encode { op, operand := amount })
  | .address op label =>
    (labels.resolve label).map fun a => Instruction.encode { op, operand := a }

end IttyBitty.Assembly
