import IttyBitty.Text.Utf8

/-!
# Source texts

A program comes as a text or as bytes that have to be UTF-8. Bytes are decoded as a whole before
any line is looked at, so a fault in them wins over every other error.
-/

namespace IttyBitty

/-- A program text as it was given. -/
inductive Source
  | text (t : Text)
  | bytes (b : List UInt8)
  deriving DecidableEq, Repr

namespace Source

/-- The text of a source. -/
def decode : Source → Except Utf8.Fault Text
  | .text t => .ok t
  | .bytes b => Utf8.decode b

/-- What is said of a source that is not UTF-8. -/
def unreadableMessage (fault : Utf8.Fault) : String := s!"could not read line: {fault.message}"

end Source

end IttyBitty
