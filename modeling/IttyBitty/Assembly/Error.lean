import IttyBitty.Source

/-!
# Assembly errors

An error is a problem of one line, a program with too many statements, a shift amount with more
digits than are read, or a source that is not UTF-8. Problems of the first kind are found while
lines are read, in source order; problems of resolution only after all lines have been read, so any
of the former hides all of the latter.

The assembler has no words for an amount that is too long: that error says neither its line nor
anything else.
-/

namespace IttyBitty.Assembly

/-- What is wrong with a line. -/
inductive Problem
  | emptyLabel
  | duplicateLabel (label : Text)
  | surplusArgument (token : Text)
  | missingData
  | unknownInstruction (mnemonic : Text)
  | unexpectedOperand (mnemonic : Text)
  | missingOperand (mnemonic : Text)
  | missingAmount
  | malformedAmount
  | amountTooLarge
  | amountTooLong
  | malformedData
  | undefinedLabel (label : Text)
  | labelOutOfRange (label : Text) (index : Nat)
  deriving DecidableEq, Repr

namespace Problem

/-- The text of a problem; an amount that is too long has none. -/
def message : Problem → String
  | .emptyLabel => "found empty label"
  | .duplicateLabel label => s!"found duplicate label: '{String.ofList label}'"
  | .surplusArgument token => s!"unexpected argument {String.ofList token}"
  | .missingData => "expected data declaration after 'dw'"
  | .unknownInstruction mnemonic => s!"unknown instruction '{String.ofList mnemonic}'"
  | .unexpectedOperand mnemonic => s!"unexpected argument to '{String.ofList mnemonic}'"
  | .missingOperand mnemonic => s!"expected argument to '{String.ofList mnemonic}'"
  | .missingAmount => "must specify amount to shift"
  | .malformedAmount => "invalid shift amount"
  | .amountTooLarge => "invalid shift amount (must be between 0 and 15, inclusive)"
  | .amountTooLong => ""
  | .malformedData => "invalid data declaration (must be a hexadecimal word)"
  | .undefinedLabel label => s!"label '{String.ofList label}' is undefined"
  | .labelOutOfRange label index =>
    s!"label '{String.ofList label}' is at 0x{String.ofList (Hex.lower 1 index)}, "
      ++ "outside the 4096-word address space"

/-- Whether the problem is a wrong shift amount. -/
def isAmount : Problem → Bool
  | .missingAmount | .malformedAmount | .amountTooLarge | .amountTooLong => true
  | _ => false

/-- Whether the problem can only be seen when every label is known. -/
def isResolution : Problem → Bool
  | .malformedData | .undefinedLabel _ | .labelOutOfRange .. => true
  | _ => false

end Problem

/-- Why a source has no program. A line is given by its number, counted from one, and its text,
which is left out for a wrong shift amount. -/
inductive Error
  | line (problem : Problem) (number : Nat) (text : Text)
  | tooManyStatements
  | amountTooLong
  | unreadable (fault : Utf8.Fault)
  deriving DecidableEq, Repr

namespace Error

/-- The error of a problem on a line. -/
def ofProblem (problem : Problem) (number : Nat) (raw : Text) : Error :=
  if problem = .amountTooLong then .amountTooLong
  else .line problem number (if problem.isAmount then [] else raw)

/-- The text of an error. -/
def message : Error → String
  | .line problem number _ => s!"Line {number}: {problem.message}"
  | .tooManyStatements => "program too long: more than 65535 statements"
  | .amountTooLong => Problem.amountTooLong.message
  | .unreadable fault => Source.unreadableMessage fault

end Error

end IttyBitty.Assembly
