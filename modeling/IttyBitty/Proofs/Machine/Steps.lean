import IttyBitty.Machine.Run

/-!
# Steps one after another

All loops that step a machine take the same steps. They differ in where they stop
and in what they count, and both are said here of the steps alone: a loop has to
stop behind the first step that halts the machine or ends in a fault.
-/

namespace IttyBitty.Machine

/-- The machine behind some steps, whatever each of them ended in. -/
def steps (m : Machine) : Nat → Machine
  | 0 => m
  | n + 1 => (m.steps n).step.1

theorem steps_succ (m : Machine) (n : Nat) : m.steps (n + 1) = m.step.1.steps n := by
  induction n with
  | zero => rfl
  | succ n ih => rw [steps, ih, steps]

theorem steps_add (m : Machine) (a b : Nat) : m.steps (a + b) = (m.steps a).steps b := by
  induction b with
  | zero => rfl
  | succ b ih => rw [← Nat.add_assoc, steps, ih, steps]

/-- What no step changes is the same behind any number of them. -/
theorem steps_of_step {α : Type} (f : Machine → α) (h : ∀ m, f m.step.1 = f m) (m : Machine)
    (n : Nat) : f (m.steps n) = f m := by
  induction n with
  | zero => rfl
  | succ n ih => rw [steps, h, ih]

/-- The step behind `k` others halts the machine or ends in a fault. -/
def Stops (m : Machine) (k : Nat) : Prop :=
  (m.steps k).step.2 ≠ none ∨ (m.steps (k + 1)).halted = true

/-- The step behind `k` others is the first that halts the machine or ends in a
fault. -/
structure FirstStop (m : Machine) (k : Nat) : Prop where
  stops : m.Stops k
  before : ∀ j < k, ¬ m.Stops j

variable {m : Machine} {k n : Nat}

theorem stops_succ_iff : m.Stops (k + 1) ↔ m.step.1.Stops k := by
  simp only [Stops, steps_succ]

theorem stops_steps_iff : (m.steps n).Stops k ↔ m.Stops (n + k) := by
  rw [Stops, Stops, Nat.add_assoc, ← steps_add, ← steps_add]

theorem stops_zero_of_fault {fault : Fault} (h : m.step.2 = some fault) : m.Stops 0 :=
  .inl (by simp [steps, h])

theorem FirstStop.of_stops_zero (h : m.Stops 0) : m.FirstStop 0 :=
  ⟨h, by simp⟩

theorem FirstStop.of_step (hzero : ¬ m.Stops 0) (h : m.step.1.FirstStop k) :
    m.FirstStop (k + 1) := by
  refine ⟨stops_succ_iff.mpr h.stops, ?_⟩
  intro j hj
  cases j with
  | zero => exact hzero
  | succ j => exact mt stops_succ_iff.mp (h.before j (by omega))

theorem FirstStop.unique {j : Nat} (h : m.FirstStop k) (h' : m.FirstStop j) : k = j := by
  rcases Nat.lt_trichotomy k j with hlt | heq | hgt
  · exact absurd h.stops (h'.before k hlt)
  · exact heq
  · exact absurd h'.stops (h.before j hgt)

/-- What has not been stopped by some steps, nor by those behind them, has not been stopped
by all of them. -/
theorem not_stops_add (h : ∀ j < n, ¬ m.Stops j) (h' : ∀ j < k, ¬ (m.steps n).Stops j) :
    ∀ j < n + k, ¬ m.Stops j := by
  intro j hj
  by_cases hjn : j < n
  · exact h j hjn
  · have hstops := h' (j - n) (by omega)
    rwa [stops_steps_iff, Nat.add_sub_cancel' (by omega)] at hstops

/-- The first stop behind some steps is the first one if none of them is. -/
theorem FirstStop.behind (h' : (m.steps n).FirstStop k) (h : ∀ j < n, ¬ m.Stops j) :
    m.FirstStop (n + k) :=
  ⟨stops_steps_iff.mp h'.stops, not_stops_add h h'.before⟩

/-- A machine that no step has stopped has not halted. -/
theorem halted_steps (hrun : m.halted = false) (h : ∀ j < n, ¬ m.Stops j) :
    (m.steps n).halted = false := by
  cases n with
  | zero => exact hrun
  | succ n =>
      have hlast := h n (by omega)
      rw [Stops, not_or] at hlast
      exact Bool.eq_false_iff.mpr hlast.2

/-! ## Runs -/

/-- How a run of at most `limit` steps turns out. A step that ends in a fault is taken
but not counted. -/
inductive Runs (m : Machine) (limit : Nat) : Run → Prop
  | halted {k : Nat} (hk : k < limit) (hfirst : m.FirstStop k)
      (hnone : (m.steps k).step.2 = none) : Runs m limit ⟨m.steps (k + 1), k + 1, none⟩
  | faulted {k : Nat} {fault : Fault} (hk : k < limit) (hfirst : m.FirstStop k)
      (hfault : (m.steps k).step.2 = some fault) :
      Runs m limit ⟨m.steps (k + 1), k, some fault⟩
  | ongoing (h : ∀ k < limit, ¬ m.Stops k) : Runs m limit ⟨m.steps limit, limit, none⟩

/-- A run that goes on behind a step. -/
theorem Runs.of_step {limit : Nat} {r : Run} (hzero : ¬ m.Stops 0)
    (h : m.step.1.Runs limit r) : m.Runs (limit + 1) { r with steps := r.steps + 1 } := by
  cases h with
  | halted hk hfirst hnone =>
      rw [← steps_succ] at hnone ⊢
      exact .halted (by omega) (hfirst.of_step hzero) hnone
  | faulted hk hfirst hfault =>
      rw [← steps_succ] at hfault ⊢
      exact .faulted (by omega) (hfirst.of_step hzero) hfault
  | ongoing h =>
      rw [← steps_succ]
      refine .ongoing fun k hk => ?_
      cases k with
      | zero => exact hzero
      | succ k => exact mt stops_succ_iff.mp (h k (by omega))

theorem runFrom_runs (count limit : Nat) (m : Machine) :
    ∃ r, m.Runs limit r ∧ runFrom count limit m = { r with steps := count + r.steps } := by
  induction limit generalizing count m with
  | zero => exact ⟨⟨m, 0, none⟩, .ongoing (by simp), rfl⟩
  | succ limit ih =>
      rw [runFrom]
      rcases hm : m.step with ⟨m', _ | fault⟩
      · have hstep : m.step.1 = m' := by rw [hm]
        have hnone : m.step.2 = none := by rw [hm]
        dsimp only
        by_cases hhalted : m'.halted = true
        · rw [if_pos hhalted]
          have hstops : m.Stops 0 := .inr (by rw [steps_succ, hstep]; exact hhalted)
          have hruns := Runs.halted (Nat.succ_pos limit) (.of_stops_zero hstops) hnone
          rw [steps_succ, hstep] at hruns
          exact ⟨_, hruns, rfl⟩
        · rw [if_neg hhalted]
          have hzero : ¬ m.Stops 0 := by
            rw [Stops, steps_succ, hstep]
            simp [steps, hnone, hhalted]
          obtain ⟨r, hr, heq⟩ := ih (count + 1) m'
          rw [← hstep] at hr
          refine ⟨_, hr.of_step hzero, ?_⟩
          rw [heq, Nat.add_assoc, Nat.add_comm 1]
      · have hfault : m.step.2 = some fault := by rw [hm]
        have hruns := Runs.faulted (Nat.succ_pos limit)
          (.of_stops_zero (stops_zero_of_fault hfault)) hfault
        rw [steps_succ, hm] at hruns
        exact ⟨_, hruns, rfl⟩

/-- **A run stops behind the first step that halts or fails**, or at its limit. -/
theorem runs (m : Machine) (limit : Nat) : m.Runs limit (m.run limit) := by
  obtain ⟨r, hr, heq⟩ := runFrom_runs 0 limit m
  rw [run, heq, Nat.zero_add]
  exact hr

/-- There is no other way for a run to turn out. -/
theorem Runs.unique {limit : Nat} {r r' : Run} (h : m.Runs limit r) (h' : m.Runs limit r') :
    r = r' := by
  cases h with
  | halted hk hfirst hnone =>
      cases h' with
      | halted _ hfirst' _ =>
          obtain rfl := hfirst.unique hfirst'
          rfl
      | faulted _ hfirst' hfault =>
          obtain rfl := hfirst.unique hfirst'
          rw [hnone] at hfault
          cases hfault
      | ongoing h => exact absurd hfirst.stops (h _ hk)
  | faulted hk hfirst hfault =>
      cases h' with
      | halted _ hfirst' hnone =>
          obtain rfl := hfirst.unique hfirst'
          rw [hnone] at hfault
          cases hfault
      | faulted _ hfirst' hfault' =>
          obtain rfl := hfirst.unique hfirst'
          rw [hfault] at hfault'
          cases hfault'
          rfl
      | ongoing h => exact absurd hfirst.stops (h _ hk)
  | ongoing h =>
      cases h' with
      | halted hk hfirst _ => exact absurd hfirst.stops (h _ hk)
      | faulted hk hfirst _ => exact absurd hfirst.stops (h _ hk)
      | ongoing => rfl

end IttyBitty.Machine
