import IttyBitty.Text.Hex

/-!
# Operations and instructions

The machine has twenty-two operations. Each belongs to one of sixteen groups, which the first four
bits of a word name; the input, output and shift groups tell their operations apart by a selector
of two more bits. The mode of an operation says what the rest of the word holds.
-/

namespace IttyBitty

/-- What the bits below the group hold: nothing, a selector, a selector and a shift amount, or an
address. -/
inductive Mode
  | inherent
  | selected
  | shift
  | address
  deriving DecidableEq, Repr

/-- The operations of the machine. -/
inductive Op
  | halt
  | readH
  | readC
  | printH
  | printC
  | shiftL
  | shiftR
  | rotL
  | rotR
  | load
  | store
  | add
  | sub
  | and
  | or
  | xor
  | not
  | nop
  | jmp
  | jmpe
  | jmpl
  | brl
  deriving DecidableEq, Repr

namespace Op

/-- The operations in the order of their codes. -/
def all : List Op :=
  [.halt, .readH, .readC, .printH, .printC, .shiftL, .shiftR, .rotL, .rotR, .load, .store, .add,
    .sub, .and, .or, .xor, .not, .nop, .jmp, .jmpe, .jmpl, .brl]

theorem mem_all (op : Op) : op ∈ all := by cases op <;> decide

/-- The name of an operation in assembly text. -/
def mnemonic : Op → String
  | .halt => "halt"
  | .readH => "readH"
  | .readC => "readC"
  | .printH => "printH"
  | .printC => "printC"
  | .shiftL => "shiftL"
  | .shiftR => "shiftR"
  | .rotL => "rotL"
  | .rotR => "rotR"
  | .load => "load"
  | .store => "store"
  | .add => "add"
  | .sub => "sub"
  | .and => "and"
  | .or => "or"
  | .xor => "xor"
  | .not => "not"
  | .nop => "nop"
  | .jmp => "jmp"
  | .jmpe => "jmpe"
  | .jmpl => "jmpl"
  | .brl => "brl"

/-- The operation of a name; letter case counts. -/
def ofMnemonic? (name : Text) : Option Op := all.find? fun op => op.mnemonic.toList == name

theorem ofMnemonic?_mnemonic (op : Op) : ofMnemonic? op.mnemonic.toList = some op := by
  cases op <;> decide

/-- The mode of an operation. -/
def mode : Op → Mode
  | .halt | .not | .nop => .inherent
  | .readH | .readC | .printH | .printC => .selected
  | .shiftL | .shiftR | .rotL | .rotR => .shift
  | _ => .address

/-- The number in the first four bits of the operation's words. -/
def group : Op → Nat
  | .halt => 0x0
  | .readH | .readC | .printH | .printC => 0x1
  | .shiftL | .shiftR | .rotL | .rotR => 0x2
  | .load => 0x3
  | .store => 0x4
  | .add => 0x5
  | .sub => 0x6
  | .and => 0x7
  | .or => 0x8
  | .xor => 0x9
  | .not => 0xA
  | .nop => 0xB
  | .jmp => 0xC
  | .jmpe => 0xD
  | .jmpl => 0xE
  | .brl => 0xF

/-- The number that tells the operations of one group apart. -/
def selector : Op → Nat
  | .readC | .shiftR => 1
  | .printH | .rotL => 2
  | .printC | .rotR => 3
  | _ => 0

/-- The operation of a group and a selector, which counts in the groups that have one. -/
def ofCode (group selector : Nat) : Op :=
  match group with
  | 0x0 => .halt
  | 0x1 =>
    match selector with
    | 0 => .readH
    | 1 => .readC
    | 2 => .printH
    | _ => .printC
  | 0x2 =>
    match selector with
    | 0 => .shiftL
    | 1 => .shiftR
    | 2 => .rotL
    | _ => .rotR
  | 0x3 => .load
  | 0x4 => .store
  | 0x5 => .add
  | 0x6 => .sub
  | 0x7 => .and
  | 0x8 => .or
  | 0x9 => .xor
  | 0xA => .not
  | 0xB => .nop
  | 0xC => .jmp
  | 0xD => .jmpe
  | 0xE => .jmpl
  | _ => .brl

theorem ofCode_group_selector (op : Op) : ofCode op.group op.selector = op := by
  cases op <;> rfl

/-- Whether an operation can move the program counter to its address. -/
def isJump : Op → Bool
  | .jmp | .jmpe | .jmpl | .brl => true
  | _ => false

end Op

/-- An operation with its operand, which is an address or a shift amount and has no meaning in the
other modes, and the bits of the word that the operation leaves unused. The fields are integers;
a word keeps only the bits that fit. -/
structure Instruction where
  op : Op
  operand : Int := 0
  spare : Int := 0
  deriving DecidableEq, Repr

namespace Instruction

/-- Whether two instructions do the same: unused bits do not count. -/
def same (i j : Instruction) : Bool := i.op == j.op && i.operand == j.operand

/-- The address of an instruction that has one. -/
def address? (i : Instruction) : Option Int :=
  match i.op.mode with
  | .address => some i.operand
  | _ => none

/-- The instruction as assembly text with a numeric operand. -/
def text (i : Instruction) : String :=
  match i.op.mode with
  | .address => s!"{i.op.mnemonic} {String.ofList (Hex.lowerInt 3 i.operand)}"
  | .shift => s!"{i.op.mnemonic} {i.operand}"
  | _ => i.op.mnemonic

end Instruction

end IttyBitty
