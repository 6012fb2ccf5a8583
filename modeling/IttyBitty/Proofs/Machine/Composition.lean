import IttyBitty.Proofs.Machine.FaultAtomicity
import IttyBitty.Proofs.Machine.Steps

/-!
# Runs one after another

A run that a halt or a fault has ended is the same with every larger limit, and one that
has come to its limit is taken up by the next run where it was left. A run without a
limit is what all limits that are large enough agree on (`Machine.composes`).
-/

namespace IttyBitty

/-- A halt or a fault has ended the run. -/
def Run.Ended (r : Run) : Prop := r.fault ≠ none ∨ r.machine.halted = true

namespace Machine

variable {m m' : Machine} {a b k : Nat} {r : Run}

/-! ## Two runs -/

/-- A run that ends without a halt or a fault has met none. -/
theorem not_stops_of_run (hnone : (m.run a).fault = none)
    (hrunning : (m.run a).machine.halted = false) : ∀ k < a, ¬ m.Stops k := by
  have hruns := m.runs a
  generalize m.run a = r at hruns hnone hrunning
  cases hruns with
  | halted _ hfirst hfault =>
      have hhalted := hfirst.stops.resolve_left (not_not.mpr hfault)
      simp [hhalted] at hrunning
  | faulted => cases hnone
  | ongoing h => exact h

/-- A run that has ended is the same with a larger limit. -/
theorem Runs.of_ended (h : m.Runs a r) (hrun : m.halted = false) (hended : r.Ended) (b : Nat) :
    m.Runs (a + b) r := by
  cases h with
  | halted hk hfirst hnone => exact .halted (by omega) hfirst hnone
  | faulted hk hfirst hfault => exact .faulted (by omega) hfirst hfault
  | ongoing hstops =>
      rcases hended with hfault | hhalted
      · exact absurd rfl hfault
      · rw [halted_steps hrun hstops] at hhalted
        cases hhalted

/-- A run of the machine behind some steps, none of which stops, is the end of a longer
one. -/
theorem Runs.behind (h : (m.steps a).Runs b r) (hstops : ∀ k < a, ¬ m.Stops k) :
    m.Runs (a + b) { r with steps := a + r.steps } := by
  cases h with
  | @halted k hk hfirst hnone =>
      have hlt : a + k < a + b := by omega
      rw [← steps_add] at hnone ⊢
      exact .halted hlt (hfirst.behind hstops) hnone
  | @faulted k fault hk hfirst hfault =>
      have hlt : a + k < a + b := by omega
      rw [← steps_add] at hfault ⊢
      exact .faulted hlt (hfirst.behind hstops) hfault
  | ongoing h =>
      rw [← steps_add]
      exact .ongoing (not_stops_add hstops h)

theorem run_add_of_ended (hrun : m.halted = false) (hended : (m.run a).Ended) (b : Nat) :
    m.run (a + b) = m.run a :=
  (m.runs (a + b)).unique ((m.runs a).of_ended hrun hended b)

/-- A run that has not ended has taken all its steps. -/
theorem run_of_ongoing (hended : ¬ (m.run a).Ended) :
    m.run a = ⟨m.steps a, a, none⟩ ∧ ∀ k < a, ¬ m.Stops k := by
  rw [Run.Ended, not_or, not_not, Bool.not_eq_true] at hended
  have hstops := not_stops_of_run hended.1 hended.2
  exact ⟨(m.runs a).unique (.ongoing hstops), hstops⟩

theorem run_add_of_ongoing (hended : ¬ (m.run a).Ended) (b : Nat) :
    m.run (a + b) =
      { (m.run a).machine.run b with steps := a + ((m.run a).machine.run b).steps } := by
  obtain ⟨hrun, hstops⟩ := run_of_ongoing hended
  rw [hrun]
  exact (m.runs (a + b)).unique (((m.steps a).runs b).behind hstops)

/-! ## What has been counted -/

/-- A machine that is running does not come to a fault for being halted. -/
theorem run_fault_ne_halted (hrun : m.halted = false) (limit : Nat) :
    (m.run limit).fault ≠ some .halted := by
  have hruns := m.runs limit
  generalize m.run limit = r at hruns
  cases hruns with
  | halted => nofun
  | faulted _ hfirst hfault =>
      intro h
      rw [show _ = Fault.halted from Option.some.inj h, step_halted_iff,
        halted_steps hrun hfirst.before] at hfault
      cases hfault
  | ongoing => nofun

/-- The last step of a run to the halt, which is counted, is the one that halts. -/
theorem run_halted (hrun : m.halted = false) (h : m.run a = ⟨m', k, none⟩)
    (hhalted : m'.halted = true) :
    k ≤ a ∧ ∃ j, k = j + 1 ∧ (m.steps j).halted = false ∧ (m.steps j).step = (m', none) := by
  have hruns := m.runs a
  rw [h] at hruns
  cases hruns with
  | @halted j hj hfirst hnone =>
      exact ⟨hj, j, rfl, halted_steps hrun hfirst.before, Prod.ext rfl hnone⟩
  | ongoing hstops =>
      rw [halted_steps hrun hstops] at hhalted
      cases hhalted

/-! ## Runs without a limit -/

/-- How a run without a limit ends: with the first step that halts the machine or ends in a
fault, which is counted only if it halts. A run that meets none does not end. -/
inductive Finishes : Machine → Run → Prop
  | faulted {m m' : Machine} {fault : Fault} (h : m.step = (m', some fault)) :
      Finishes m ⟨m', 0, some fault⟩
  | halted {m m' : Machine} (h : m.step = (m', none)) (hhalted : m'.halted = true) :
      Finishes m ⟨m', 1, none⟩
  | more {m m' : Machine} {r : Run} (h : m.step = (m', none)) (hrun : m'.halted = false)
      (hmore : Finishes m' r) : Finishes m { r with steps := r.steps + 1 }

/-- A run of one step more goes on behind that step. -/
theorem run_succ (m : Machine) (limit : Nat) :
    m.run (limit + 1) =
      match m.step with
      | (m', some fault) => ⟨m', 0, some fault⟩
      | (m', none) =>
        if m'.halted then ⟨m', 1, none⟩
        else { m'.run limit with steps := (m'.run limit).steps + 1 } := by
  have hfrom (m' : Machine) :
      runFrom 1 limit m' = { m'.run limit with steps := (m'.run limit).steps + 1 } := by
    obtain ⟨r, hr, heq⟩ := runFrom_runs 1 limit m'
    rw [heq, (m'.runs limit).unique hr, Nat.add_comm]
  rw [run, runFrom]
  rcases m.step with ⟨m', _ | fault⟩
  · dsimp only
    rw [hfrom]
  · rfl

theorem Finishes.exists_run (h : m.Finishes r) : ∃ limit, m.run limit = r ∧ r.Ended := by
  induction h with
  | faulted h => exact ⟨1, by rw [run_succ, h], .inl nofun⟩
  | halted h hhalted => exact ⟨1, by rw [run_succ, h]; exact if_pos hhalted, .inr hhalted⟩
  | @more m m' r h hrun hmore ih =>
      obtain ⟨limit, rfl, hended⟩ := ih
      refine ⟨limit + 1, ?_, hended⟩
      rw [run_succ, h]
      exact if_neg (by rw [hrun]; nofun)

theorem finishes_of_run (hrun : m.halted = false) {limit : Nat} (hended : (m.run limit).Ended) :
    m.Finishes (m.run limit) := by
  induction limit generalizing m with
  | zero =>
      rcases hended with hfault | hhalted
      · exact absurd rfl hfault
      · exact absurd (hrun.symm.trans hhalted) nofun
  | succ limit ih =>
      rw [run_succ] at hended ⊢
      rcases hstep : m.step with ⟨m', _ | fault⟩
      · simp only [hstep] at hended ⊢
        by_cases hhalted : m'.halted = true
        · rw [if_pos hhalted]
          exact .halted hstep hhalted
        · rw [if_neg hhalted] at hended ⊢
          have hrun' := Bool.eq_false_iff.mpr hhalted
          exact .more hstep hrun' (ih hrun' hended)
      · exact .faulted hstep

/-- **A run without a limit ends as a run does whose limit is large enough.** -/
theorem finishes_iff (hrun : m.halted = false) :
    m.Finishes r ↔ ∃ limit, m.run limit = r ∧ r.Ended := by
  refine ⟨Finishes.exists_run, ?_⟩
  rintro ⟨limit, rfl, hended⟩
  exact finishes_of_run hrun hended

theorem runToHalt_eq_some_iff {bound : Nat} :
    m.runToHalt bound = some r ↔ m.run bound = r ∧ r.Ended := by
  rw [runToHalt, Run.Ended, ← Option.isSome_iff_ne_none]
  split
  · rename_i h
    rw [Option.some.injEq]
    refine ⟨?_, And.left⟩
    rintro rfl
    exact ⟨rfl, by simpa using h⟩
  · rename_i h
    refine ⟨nofun, ?_⟩
    rintro ⟨rfl, hended⟩
    exact absurd (by simpa using hended) h

/-- Every limit that is not smaller than the count gives the run to the halt. -/
theorem Finishes.run_eq (h : m.Finishes ⟨m', k, none⟩) (hrun : m.halted = false) {j : Nat}
    (hj : k ≤ j) : m.run j = ⟨m', k, none⟩ ∧ m'.halted = true := by
  obtain ⟨limit, hlimit, hended⟩ := h.exists_run
  have hhalted : m'.halted = true := hended.resolve_left (not_not.mpr rfl)
  refine ⟨?_, hhalted⟩
  have hruns := m.runs limit
  rw [hlimit] at hruns
  cases hruns with
  | halted hk hfirst hnone => exact (m.runs j).unique (.halted (by omega) hfirst hnone)
  | ongoing hstops =>
      rw [halted_steps hrun hstops] at hhalted
      cases hhalted

/-- **How the runs of a machine compose**, with their machines, counts and faults. -/
structure Composes (m : Machine) : Prop where
  /-- A run that fails fails in the same way, and leaves the same machine, with any limit
  that is not smaller; -/
  failed : ∀ a b fault, (m.run a).fault = some fault → m.run (a + b) = m.run a
  /-- a run that halts comes to the same halt, behind the same number of steps; -/
  halted : ∀ a b, (m.run a).fault = none → (m.run a).machine.halted = true →
    m.run (a + b) = m.run a
  /-- any other has taken as many steps as it could, and a second run goes on from there. -/
  ongoing : ∀ a b, (m.run a).fault = none → (m.run a).machine.halted = false →
    (m.run a).steps = a ∧
      m.run (a + b) =
        { (m.run a).machine.run b with steps := a + ((m.run a).machine.run b).steps }
  /-- A run without a limit is the run to the halt with a bound that is large enough. -/
  unlimited : ∀ r, m.Finishes r ↔ ∃ bound, m.runToHalt bound = some r
  /-- It returns a count exactly if all limits from that count on return it, halted, -/
  returns : ∀ k, (∃ m', m.Finishes ⟨m', k, none⟩) ↔
    ∀ j ≥ k, (m.run j).fault = none ∧ (m.run j).steps = k ∧ (m.run j).machine.halted = true
  /-- and then they all leave the machine that it leaves. -/
  leaves : ∀ m' k, m.Finishes ⟨m', k, none⟩ → ∀ j ≥ k, m.run j = ⟨m', k, none⟩
  /-- The step that halts is the last one that is counted. -/
  counted : ∀ a m' k, m.run a = ⟨m', k, none⟩ → m'.halted = true →
    k ≤ a ∧ ∃ j, k = j + 1 ∧ (m.steps j).halted = false ∧ (m.steps j).step = (m', none)
  unhalted : (∀ a, (m.run a).fault ≠ some .halted) ∧
    ∀ r, m.Finishes r → r.fault ≠ some .halted

/-- **Bounded runs compose**, and a run without a bound is what they come to. -/
theorem composes (hrun : m.halted = false) : m.Composes where
  failed a b fault hfault :=
    run_add_of_ended hrun (.inl (by rw [hfault]; nofun)) b
  halted a b _ hhalted := run_add_of_ended hrun (.inr hhalted) b
  ongoing a b hnone hrunning := by
    have hended : ¬ (m.run a).Ended := by simp [Run.Ended, hnone, hrunning]
    exact ⟨congrArg Run.steps (run_of_ongoing hended).1, run_add_of_ongoing hended b⟩
  unlimited r := by
    simp only [finishes_iff hrun, runToHalt_eq_some_iff]
  returns k := by
    constructor
    · rintro ⟨m', h⟩ j hj
      obtain ⟨heq, hhalted⟩ := h.run_eq hrun hj
      rw [heq]
      exact ⟨rfl, rfl, hhalted⟩
    · intro h
      obtain ⟨hnone, hsteps, hhalted⟩ := h k (le_refl k)
      have heq : m.run k = ⟨(m.run k).machine, k, none⟩ := by
        rw [Run.mk.injEq]
        exact ⟨rfl, hsteps, hnone⟩
      exact ⟨_, heq ▸ finishes_of_run hrun (.inr hhalted)⟩
  leaves m' k h j hj := (h.run_eq hrun hj).1
  counted a m' k := run_halted hrun
  unhalted := by
    refine ⟨run_fault_ne_halted hrun, fun r h => ?_⟩
    obtain ⟨limit, rfl, -⟩ := h.exists_run
    exact run_fault_ne_halted hrun limit

/-- A program that waits and halts: its second step is the last one of all runs. -/
theorem composes_waiting :
    let m : Machine := { memory := Memory.ofWords [0xB000, 0] (by decide) }
    m.halted = false ∧ m.Composes ∧ (m.run 1).machine.halted = false ∧
      ∀ j ≥ 2, (m.run j).steps = 2 := by
  have hcomposes := composes (m := { memory := Memory.ofWords [0xB000, 0] (by decide) }) rfl
  refine ⟨rfl, hcomposes, rfl, fun j hj => ?_⟩
  have hfinishes := (hcomposes.unlimited (Machine.run 2 _)).mpr ⟨2, rfl⟩
  exact congrArg Run.steps (hcomposes.leaves _ 2 hfinishes j hj)

end Machine

end IttyBitty
