import IttyBitty.Instruction.Codec
import IttyBitty.Memory.Basic
import IttyBitty.Stream

/-!
# The machine

A machine is its registers, its memory, a flag that says whether it has halted, and the two streams
its programs read and write. Two switches change what is shown of a run and nothing else: whether
a prompt comes before every line that is read, and whether every fetched instruction is noted in a
trace.

The accumulator and the instruction register are integers because they can be set from outside to
any value; the machine itself only puts sixteen-bit words into them.
-/

namespace IttyBitty

/-- The accumulator, the last fetched word, and the place of the next word to fetch. -/
structure Registers where
  acc : Int := 0
  ir : Int := 0
  pc : Nat := 0
  deriving DecidableEq, Repr

namespace Registers

/-- The accumulator as a signed number. -/
def signedAcc (r : Registers) : Int := Alu.signed r.acc

/-- The registers on one line. -/
def text (r : Registers) : String :=
  let hex width n := String.ofList (Hex.upperInt width n)
  s!"PC={hex 3 r.pc} ACC={hex 4 r.acc} IR={hex 4 r.ir}"

/-- The registers on one line, under their name. -/
def described (r : Registers) : String := s!"Registers({r.text})"

end Registers

/-- What a trace notes when an instruction has been fetched: its address, the instruction, and the
registers before it is executed, with the program counter already behind it. -/
structure TraceEntry where
  address : Nat
  instruction : Instruction
  registers : Registers
  deriving DecidableEq, Repr

/-- The line of a trace entry; the instruction takes ten columns or more. -/
def TraceEntry.text (e : TraceEntry) : String :=
  let shown := e.instruction.text
  let margin := String.ofList (List.replicate (10 - shown.length) ' ')
  s!"{String.ofList (Hex.lower 3 e.address)}: {shown}{margin} {e.registers.text}"

/-- A machine with its streams and switches; the trace holds its entries in order. -/
structure Machine where
  memory : Memory
  registers : Registers := {}
  halted : Bool := false
  input : Input := .ofText []
  output : Output := {}
  prompting : Bool := true
  tracing : Bool := false
  trace : Array TraceEntry := #[]
  deriving DecidableEq

namespace Machine

/-- Clears the registers, the halted flag and the trace; the memory stays. -/
def reset (m : Machine) : Machine := { m with registers := {}, halted := false, trace := #[] }

/-- The machine with another value in its accumulator. -/
def setAcc (m : Machine) (value : Int) : Machine :=
  { m with registers := { m.registers with acc := value } }

/-- The machine with another program counter. -/
def setPc (m : Machine) (pc : Nat) : Machine :=
  { m with registers := { m.registers with pc } }

/-- The lines of the trace. -/
def traceLines (m : Machine) : List String := m.trace.toList.map TraceEntry.text

end Machine

end IttyBitty
