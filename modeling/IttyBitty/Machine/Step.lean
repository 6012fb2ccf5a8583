import IttyBitty.Machine.Basic
import IttyBitty.Machine.Fault

/-!
# One step

A step fetches the word at the program counter, moves the counter behind it, and executes the
instruction. A halted machine and a counter outside the memory fault before anything changes. A
fault in an input or output instruction leaves the counter behind that instruction and the
accumulator as it was, so that the machine can be looked at and stepped on.
-/

namespace IttyBitty

namespace Machine

/-- Writes a text to the output. -/
def write (m : Machine) (text : String) : Machine × Option Fault :=
  if m.output.writes then ({ m with output := m.output.append text }, none)
  else (m, some .outputFailed)

/-- Shows a prompt, if the machine is to show any. -/
def prompt (m : Machine) (text : String) : Machine × Option Fault :=
  if m.prompting then
    match m.write text with
    | (m, some fault) => (m, some fault)
    | (m, none) => if m.output.flushes then (m, none) else (m, some .promptFailed)
  else (m, none)

/-- Reads a line into the accumulator: shows the prompt, takes one line of the input, and trims it
for `value?`, which gives the new accumulator or refuses the line. -/
def readInto (m : Machine) (promptText : String) (value? : RawText → Except Fault Word) :
    Machine × Option Fault :=
  match m.prompt promptText with
  | (m, some fault) => (m, some fault)
  | (m, none) =>
    match m.input.readLine with
    | (.failed, rest) => ({ m with input := rest }, some .inputFailed)
    | (.ended, rest) => ({ m with input := rest }, some .inputEnded)
    | (.line line, rest) =>
      let m := { m with input := rest }
      match value? (RawText.trim line) with
      | .error fault => (m, some fault)
      | .ok w => (m.setAcc w.value, none)

/-- The prompt before a hexadecimal word. -/
def wordPrompt : String := "Enter hexadecimal word: "

/-- The prompt before a character. -/
def characterPrompt : String := "Enter ASCII character: "

/-- A typed word: one to four hexadecimal digits. -/
def typedWord (line : RawText) : Except Fault Word :=
  if line.length < 1 ∨ 4 < line.length then .error (.wordLength line)
  else
    match RawText.text? line with
    | some digits =>
      if digits.all Hex.isDigit then .ok (BitVec.ofNat 16 (Hex.number digits))
      else .error (.wordDigits line)
    | none => .error (.wordDigits line)

/-- A typed character: one ASCII character. -/
def typedCharacter (line : RawText) : Except Fault Word :=
  match RawText.text? line with
  | some [c] =>
    if c.toNat < 128 then .ok (BitVec.ofNat 16 c.toNat) else .error (.notOneCharacter line)
  | some _ => .error (.notOneCharacter line)
  | none => .error (.unencodable line)

/-- The accumulator as it is printed in hexadecimal. -/
def printedWord (acc : Int) : String := String.ofList (Hex.lowerInt 4 acc ++ ['\n'])

/-- The character of the accumulator's low byte, as it is printed. -/
def printedCharacter (acc : Int) : String :=
  String.ofList [Char.ofNat (acc % 256).toNat, '\n']

/-- Executes an instruction that has been fetched. -/
def execute (m : Machine) (i : Instruction) : Machine × Option Fault :=
  let acc := m.registers.acc
  let place := Address.ofInt i.operand
  let amount := (i.operand % 16).toNat
  let combine (f : Int → Int → Word) :=
    (m.setAcc (f acc (m.memory.fetch place).value).value, none)
  match i.op with
  | .halt => ({ m with halted := true }, none)
  | .readH => m.readInto wordPrompt typedWord
  | .readC => m.readInto characterPrompt typedCharacter
  | .printH => m.write (printedWord acc)
  | .printC => m.write (printedCharacter acc)
  | .shiftL => (m.setAcc (Alu.shiftLeft acc amount).value, none)
  | .shiftR => (m.setAcc (Alu.shiftRight acc amount).value, none)
  | .rotL => (m.setAcc (Alu.rotateLeft acc amount).value, none)
  | .rotR => (m.setAcc (Alu.rotateRight acc amount).value, none)
  | .load => (m.setAcc (m.memory.fetch place).value, none)
  | .store => ({ m with memory := m.memory.store place (Word.ofInt acc) }, none)
  | .add => combine Alu.add
  | .sub => combine Alu.sub
  | .and => combine Alu.and
  | .or => combine Alu.or
  | .xor => combine Alu.xor
  | .not => (m.setAcc (Alu.not acc).value, none)
  | .nop => (m, none)
  | .jmp => (m.setPc place.val, none)
  | .jmpe => (if acc = 0 then m.setPc place.val else m, none)
  | .jmpl => (if Alu.isNegative acc then m.setPc place.val else m, none)
  | .brl => ((m.setAcc (Word.ofInt m.registers.pc).value).setPc place.val, none)

/-- The machine after it has fetched the word at an address: the word is in the instruction
register, the program counter behind it, and the trace has noted it if it is kept. -/
def fetched (m : Machine) (address : Nat) (w : Word) : Machine :=
  let m := { m with registers := { m.registers with ir := w.value, pc := address + 1 } }
  if m.tracing then
    { m with trace := m.trace.push ⟨address, Instruction.decode w, m.registers⟩ }
  else m

/-- Fetches and executes one instruction. -/
def step (m : Machine) : Machine × Option Fault :=
  if m.halted then (m, some .halted)
  else if inside : m.registers.pc < 4096 then
    let w := m.memory.fetch ⟨m.registers.pc, inside⟩
    (m.fetched m.registers.pc w).execute (Instruction.decode w)
  else (m, some (.outOfBounds m.registers.pc))

/-- The instruction at the program counter. -/
def current (m : Machine) : Except Fault Instruction :=
  if inside : m.registers.pc < 4096 then
    .ok (Instruction.decode (m.memory.fetch ⟨m.registers.pc, inside⟩))
  else .error (.outOfBounds m.registers.pc)

/-- The instruction at a number that may be no address. -/
def instructionAt (m : Machine) (a : Nat) : Except Memory.Error Instruction :=
  (m.memory.read a).map Instruction.decode

end Machine

end IttyBitty
