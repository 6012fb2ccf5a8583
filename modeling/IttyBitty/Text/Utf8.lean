import IttyBitty.Text.Hex

/-!
# Strict UTF-8

Bytes are read one at a time by a machine that stands between characters or inside a sequence. A
state inside a sequence says how many bytes are owed and which values the next one may have: the
narrow ranges after E0, ED, F0 and F4 are what rules out overlong forms, surrogates and code
points above 10FFFF. A byte-order mark is a character like any other.

A fault names the first ill-formed sequence, which is the longest prefix of it that could still
have become a character.
-/

namespace IttyBitty.Utf8

/-- What is wrong with an ill-formed sequence. -/
inductive Reason
  | invalidStart
  | invalidContinuation
  | unexpectedEnd
  deriving DecidableEq, Repr

/-- The text of a reason. -/
def Reason.message : Reason → String
  | .invalidStart => "invalid start byte"
  | .invalidContinuation => "invalid continuation byte"
  | .unexpectedEnd => "unexpected end of data"

/-- An ill-formed sequence: the offset and value of its first byte, the number of its bytes, and
what is wrong with it. -/
structure Fault where
  offset : Nat
  first : UInt8
  size : Nat
  reason : Reason
  deriving DecidableEq, Repr

/-- The text of a fault; offsets of a longer sequence are inclusive. -/
def Fault.message (f : Fault) : String :=
  let place :=
    if f.size = 1 then s!"byte 0x{String.ofList (Hex.byte f.first)} in position {f.offset}"
    else s!"bytes in position {f.offset}-{f.offset + f.size - 1}"
  s!"'utf-8' codec can't decode {place}: {f.reason.message}"

/-- A sequence that has begun: its first byte, the bits read so far, how many bytes have been
read and how many are owed, and the least and greatest value of the next byte. -/
structure Partial where
  first : UInt8
  bits : Nat
  read : Nat
  owed : Nat
  least : Nat
  greatest : Nat
  deriving DecidableEq, Repr

/-- What a first byte says: a character of its own, the start of a longer sequence, or nothing
that UTF-8 has. -/
inductive Lead
  | character (c : Char)
  | sequence (p : Partial)
  | invalid
  deriving DecidableEq, Repr

/-- Reads a first byte. -/
def lead (b : UInt8) : Lead :=
  let n := b.toNat
  let longer (bits owed least greatest : Nat) : Lead :=
    .sequence ⟨b, bits, 1, owed, least, greatest⟩
  if n ≤ 0x7F then .character (Char.ofNat n)
  else if n < 0xC2 then .invalid
  else if n ≤ 0xDF then longer (n - 0xC0) 1 0x80 0xBF
  else if n = 0xE0 then longer 0 2 0xA0 0xBF
  else if n = 0xED then longer 13 2 0x80 0x9F
  else if n ≤ 0xEF then longer (n - 0xE0) 2 0x80 0xBF
  else if n = 0xF0 then longer 0 3 0x90 0xBF
  else if n ≤ 0xF3 then longer (n - 0xF0) 3 0x80 0xBF
  else if n = 0xF4 then longer 4 3 0x80 0x8F
  else .invalid

/-- What one more byte of a sequence leads to. -/
inductive Continuation
  | character (c : Char)
  | sequence (p : Partial)
  | invalid
  deriving DecidableEq, Repr

/-- Reads a further byte of a sequence. -/
def Partial.continue (p : Partial) (b : UInt8) : Continuation :=
  let n := b.toNat
  if n < p.least ∨ p.greatest < n then .invalid
  else
    let bits := 64 * p.bits + (n - 0x80)
    if p.owed ≤ 1 then .character (Char.ofNat bits)
    else .sequence ⟨p.first, bits, p.read + 1, p.owed - 1, 0x80, 0xBF⟩

/-- Whether a byte makes the first two bytes of a surrogate out of a sequence, which leaves no
character that it could become. -/
def Partial.beginsSurrogate (p : Partial) (b : UInt8) : Bool :=
  p.first == 0xED && p.read == 1 && 0xA0 ≤ b && b ≤ 0xBF

/-- The fault of a sequence that breaks off before the byte at `offset`. -/
def Partial.fault (p : Partial) (offset : Nat) (reason : Reason) : Fault :=
  ⟨offset - p.read, p.first, p.read, reason⟩

/-- Where the reading of some bytes ended: the characters read, and the sequence left open. -/
structure Progress where
  chars : Text
  open? : Option Partial

/-- Reads the bytes that begin at `offset`; `done` holds the characters read so far, last first. -/
def scan (offset : Nat) (done : Text) : Option Partial → List UInt8 → Except Fault Progress
  | state, [] => .ok ⟨done.reverse, state⟩
  | none, b :: rest =>
    match lead b with
    | .character c => scan (offset + 1) (c :: done) none rest
    | .sequence p => scan (offset + 1) done (some p) rest
    | .invalid => .error ⟨offset, b, 1, .invalidStart⟩
  | some p, b :: rest =>
    match p.continue b with
    | .character c => scan (offset + 1) (c :: done) none rest
    | .sequence q => scan (offset + 1) done (some q) rest
    | .invalid => .error (p.fault offset .invalidContinuation)

/-- The characters of a byte string, if all of it is well formed. -/
def decode (bytes : List UInt8) : Except Fault Text := do
  let progress ← scan 0 [] none bytes
  match progress.open? with
  | none => .ok progress.chars
  | some p => .error (p.fault bytes.length .unexpectedEnd)

/-- The bytes of a text. -/
def encode (t : Text) : List UInt8 := t.flatMap String.utf8EncodeChar

end IttyBitty.Utf8
