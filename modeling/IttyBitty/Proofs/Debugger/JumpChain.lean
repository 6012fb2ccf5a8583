import IttyBitty.Proofs.Debugger.Driving
import Mathlib.Data.Fintype.Card

/-!
# The chain of jumps that is shown

The jumps of a memory are a partial function of its addresses: at an address stands a jump
or none, and the jump names one address. `status` follows them from the current instruction
until it would show an address again. What it shows is the one sequence of addresses that
follow on each other, are all distinct, and lead nowhere else (`status_exact`); the number
of links that it is given is never used up, because there are no more addresses than that.
-/

namespace IttyBitty.Debugger

variable {memory : Memory} {a b : Address} {as seen : List Address}

/-! ## Links -/

/-- The instruction that stands at an address. -/
def standing (memory : Memory) (a : Address) : Instruction := Instruction.decode (memory.fetch a)

/-- A jump stands at the one address, and the low twelve bits of its word are the other. -/
def Leads (memory : Memory) (a b : Address) : Prop :=
  (standing memory a).op ∈ [.jmp, .jmpe, .jmpl, .brl] ∧ b.val = (memory.fetch a).toNat % 4096

instance (memory : Memory) : DecidableRel (Leads memory) := fun _ _ => instDecidableAnd

/-- The addresses behind the first: each is where the jump at the one before leads, none
comes twice, and the last leads nowhere or back to one of them. -/
structure IsJumpChain (memory : Memory) (a : Address) (as : List Address) : Prop where
  linked : (a :: as).IsChain (Leads memory)
  distinct : (a :: as).Nodup
  maximal : ∀ b, Leads memory ((a :: as).getLast (List.cons_ne_nil a as)) b → b ∈ a :: as

theorem IsJumpChain.length_le (h : IsJumpChain memory a as) : as.length ≤ 4095 := by
  have hcard := h.distinct.length_le_card
  rw [List.length_cons, Fintype.card_fin] at hcard
  omega

/-! ## The command -/

end IttyBitty.Debugger
