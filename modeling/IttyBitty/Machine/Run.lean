import IttyBitty.Machine.Step

/-!
# Runs

A run steps a machine until it halts, faults, or has taken a given number of steps. The halting
step counts. A run to the halt has no bound of its own; `runToHalt` gives its result when the bound
it is given is large enough, and a larger bound never changes that result.
-/

namespace IttyBitty

/-- Where a run ended: the machine, the number of completed steps, and the fault if there was
one. -/
structure Run where
  machine : Machine
  steps : Nat
  fault : Option Fault

namespace Machine

/-- Runs for at most `limit` steps, after `steps` that have been taken. -/
def runFrom (steps : Nat) : (limit : Nat) → Machine → Run
  | 0, m => ⟨m, steps, none⟩
  | limit + 1, m =>
    match m.step with
    | (m, some fault) => ⟨m, steps, some fault⟩
    | (m, none) => if m.halted then ⟨m, steps + 1, none⟩ else runFrom (steps + 1) limit m

/-- Runs for at most `limit` steps. -/
def run (limit : Nat) (m : Machine) : Run := runFrom 0 limit m

/-- Runs until the machine halts or faults, if that takes no more than `bound` steps. -/
def runToHalt (bound : Nat) (m : Machine) : Option Run :=
  let r := m.run bound
  if r.fault.isSome || r.machine.halted then some r else none

end Machine

end IttyBitty
