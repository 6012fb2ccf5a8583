import IttyBitty.Debugger.Basic
import IttyBitty.Proofs.Machine.Composition
import IttyBitty.Proofs.Machine.Switches

/-!
# What command lines demand

A command line asks for some steps of a machine. How many it takes of them is said by
the steps of the machine alone, and both loops of the debugger take as many: they are
the run of the machine, told in other numbers.
-/

namespace IttyBitty

namespace Machine

variable {m m' : Machine}

/-- The machines are the same but for what has been written. -/
structure Alike (m m' : Machine) : Prop extends Twins m m' where
  prompting : m'.prompting = m.prompting
  tracing : m'.tracing = m.tracing
  trace : m'.trace = m.trace

theorem Alike.refl (m : Machine) : m.Alike m := ⟨.refl m, rfl, rfl, rfl⟩

theorem Alike.trans {m'' : Machine} (h : m.Alike m') (h' : m'.Alike m'') : m.Alike m'' :=
  ⟨h.toTwins.trans h'.toTwins, h'.prompting.trans h.prompting, h'.tracing.trans h.tracing,
    h'.trace.trans h.trace⟩

theorem Alike.symm (h : m.Alike m') : m'.Alike m :=
  ⟨⟨h.registers.symm, h.memory.symm, h.halted.symm, h.input.symm, h.mode.symm⟩,
    h.prompting.symm, h.tracing.symm, h.trace.symm⟩

theorem Alike.step (h : m.Alike m') : m.step.1.Alike m'.step.1 := by
  refine ⟨(twins_step h.toTwins (.inl h.prompting)).1, ?_, ?_, ?_⟩
  · rw [prompting_step, prompting_step, h.prompting]
  · rw [tracing_step, tracing_step, h.tracing]
  · rw [trace_step, trace_step, h.toTwins.nextEntry, h.tracing, h.trace]

theorem Alike.steps (h : m.Alike m') (n : Nat) : (m.steps n).Alike (m'.steps n) := by
  induction n with
  | zero => exact h
  | succ n ih => exact ih.step

theorem Alike.firstStop_iff (h : m.Alike m') {k : Nat} : m'.FirstStop k ↔ m.FirstStop k :=
  twins_firstStop_iff h.toTwins (.inl h.prompting) k

theorem Alike.stops_iff (h : m.Alike m') {k : Nat} : m'.Stops k ↔ m.Stops k :=
  twins_stops_iff h.toTwins (.inl h.prompting) k

end Machine

namespace Debugger

open Machine

/-! ## What a line asks for -/

/-- How many steps a command line asks for. -/
inductive Demand
  | nothing
  | atMost (n : Nat)
  | toHalt
  deriving DecidableEq, Repr

/-- What the arguments of `step` ask for: one step if there are none, and as many as a
single count says. -/
def stepDemand : List RawText → Demand
  | [] => .atMost 1
  | [count] => (RawText.count? count).elim .nothing .atMost
  | _ => .nothing

/-- What the arguments of `run` ask for: it has none. -/
def runDemand : List RawText → Demand
  | [] => .toHalt
  | _ => .nothing

/-- What a line asks for. No lines but those of `run` and `step` ask for any. -/
def demand (line : RawText) : Demand :=
  match ShellWords.split line with
  | .ok (word :: arguments) =>
    if word = "step" then stepDemand arguments
    else if word = "run" then runDemand arguments
    else .nothing
  | _ => .nothing

example : demand "step ' 1_0'\n" = .atMost 10 := by decide

/-- The number of steps that a demand takes of a machine: none of one that has halted,
else those up to the first that halts it or fails, if there are so many. -/
inductive Takes (m : Machine) : Demand → Nat → Prop
  | nothing : Takes m .nothing 0
  | halted {wanted : Demand} (h : m.halted = true) : Takes m wanted 0
  | stopped {n k : Nat} (hrun : m.halted = false) (hk : k < n) (hfirst : m.FirstStop k) :
      Takes m (.atMost n) (k + 1)
  | executed {n : Nat} (hrun : m.halted = false) (h : ∀ k < n, ¬ m.Stops k) :
      Takes m (.atMost n) n
  | ran {k : Nat} (hrun : m.halted = false) (hfirst : m.FirstStop k) :
      Takes m .toHalt (k + 1)

/-- The number of steps that a sequence of lines takes. -/
inductive TakesAll : Machine → List RawText → Nat → Prop
  | nil {m : Machine} : TakesAll m [] 0
  | cons {m : Machine} {line : RawText} {lines : List RawText} {k n : Nat}
      (hline : Takes m (demand line) k) (hlines : TakesAll (m.steps k) lines n) :
      TakesAll m (line :: lines) (k + n)

variable {m m' : Machine} {wanted : Demand} {k : Nat}

theorem Takes.alike (h : Takes m wanted k) (halike : m.Alike m') : Takes m' wanted k := by
  cases h with
  | nothing => exact .nothing
  | halted h => exact .halted (halike.halted.trans h)
  | stopped hrun hk hfirst =>
      exact .stopped (halike.halted.trans hrun) hk (halike.firstStop_iff.mpr hfirst)
  | executed hrun h =>
      exact .executed (halike.halted.trans hrun) fun j hj => mt halike.stops_iff.mp (h j hj)
  | ran hrun hfirst => exact .ran (halike.halted.trans hrun) (halike.firstStop_iff.mpr hfirst)

theorem TakesAll.alike {lines : List RawText} {n : Nat} (h : TakesAll m lines n)
    (halike : m.Alike m') : TakesAll m' lines n := by
  induction h generalizing m' with
  | nil => exact .nil
  | cons hline _ ih => exact .cons (hline.alike halike) (ih (halike.steps _))

/-- A demand takes one number of steps. -/
theorem Takes.unique {j : Nat} (h : Takes m wanted k) (h' : Takes m wanted j) : k = j := by
  cases h with
  | nothing =>
      cases h' with
      | nothing => rfl
      | halted => rfl
  | halted hhalted => cases h' <;> simp_all
  | stopped hrun hk hfirst =>
      cases h' with
      | halted hhalted => simp [hrun] at hhalted
      | stopped _ _ hfirst' => rw [hfirst.unique hfirst']
      | executed _ h => exact absurd hfirst.stops (h _ hk)
  | executed hrun h =>
      cases h' with
      | halted hhalted => simp [hrun] at hhalted
      | stopped _ hk hfirst => exact absurd hfirst.stops (h _ hk)
      | executed => rfl
  | ran hrun hfirst =>
      cases h' with
      | halted hhalted => simp [hrun] at hhalted
      | ran _ hfirst' => rw [hfirst.unique hfirst']

/-- **No step is taken of a machine that has halted.** -/
theorem Takes.running (h : Takes m wanted k) {i : Nat} (hi : i < k) :
    (m.steps i).halted = false := by
  cases h with
  | nothing => omega
  | halted => omega
  | stopped hrun _ hfirst => exact halted_steps hrun fun j hj => hfirst.before j (by omega)
  | executed hrun h => exact halted_steps hrun fun j hj => h j (by omega)
  | ran hrun hfirst => exact halted_steps hrun fun j hj => hfirst.before j (by omega)

theorem TakesAll.running {lines : List RawText} {n : Nat} (h : TakesAll m lines n) {i : Nat}
    (hi : i < n) : (m.steps i).halted = false := by
  induction h generalizing i with
  | nil => omega
  | @cons m _ _ k n hline _ ih =>
      by_cases hik : i < k
      · exact hline.running hik
      · have hrest := ih (i := i - k) (by omega)
        rw [← steps_add, Nat.add_sub_cancel' (by omega)] at hrest
        exact hrest

/-- Steps that a machine goes on after can be asked for in two parts. -/
theorem Takes.add {a b j : Nat} (hrun : m.halted = false) (h : ∀ k < a, ¬ m.Stops k)
    (hrest : Takes (m.steps a) (.atMost b) j) : Takes m (.atMost (a + b)) (a + j) := by
  have hrunning := halted_steps hrun h
  cases hrest with
  | halted hhalted => simp [hrunning] at hhalted
  | @stopped _ k _ hk hfirst =>
      have hlt : a + k < a + b := by omega
      exact .stopped hrun hlt (hfirst.behind h)
  | executed _ h' => exact .executed hrun (not_stops_add h h')

/-! ## The two loops -/

/-- The loop of `run` is the run to the halt, with one step less in its number. -/
theorem untilHalt_eq (done bound : Nat) (hrun : m.halted = false) :
    untilHalt done bound m =
      let r := runFrom done bound m
      match r.fault with
      | some fault => some (r.machine, .error fault)
      | none => if r.machine.halted then some (r.machine, .ok (r.steps - 1)) else none := by
  induction bound generalizing done m with
  | zero => simp [untilHalt, runFrom, hrun]
  | succ bound ih =>
      rw [untilHalt, runFrom]
      rcases m.step with ⟨m', _ | fault⟩
      · dsimp only
        by_cases hhalted : m'.halted = true
        · rw [if_pos hhalted, if_pos hhalted]
          simp [hhalted]
        · rw [if_neg hhalted, if_neg hhalted]
          exact ih (done + 1) (by simpa using hhalted)
      · rfl

/-- The loop of `step` is the run of so many steps. -/
theorem stepping_eq (done left : Nat) (hrun : m.halted = false) :
    stepping done left m =
      let r := runFrom done left m
      (r.machine,
        match r.fault with
        | some fault => .error fault
        | none => .ok (if r.machine.halted then some r.steps else none)) := by
  induction left generalizing done m with
  | zero => simp [stepping, runFrom, hrun]
  | succ left ih =>
      rw [stepping, runFrom]
      rcases m.step with ⟨m', _ | fault⟩
      · dsimp only
        by_cases hhalted : m'.halted = true
        · rw [if_pos hhalted, if_pos hhalted]
          simp [hhalted]
        · rw [if_neg hhalted, if_neg hhalted]
          exact ih (done + 1) (by simpa using hhalted)
      · rfl

/-! ## What runs take -/

/-- A run takes what `step` asks for. -/
theorem takes_run (hrun : m.halted = false) (n : Nat) :
    ∃ k, Takes m (.atMost n) k ∧ (m.run n).machine = m.steps k := by
  have hruns := m.runs n
  generalize m.run n = r at hruns
  cases hruns with
  | halted hk hfirst => exact ⟨_, .stopped hrun hk hfirst, rfl⟩
  | faulted hk hfirst => exact ⟨_, .stopped hrun hk hfirst, rfl⟩
  | ongoing h => exact ⟨_, .executed hrun h, rfl⟩

/-- A run to the halt takes what `run` asks for, if the bound suffices. -/
theorem takes_runToHalt {bound : Nat} {r : Run} (hrun : m.halted = false)
    (h : m.runToHalt bound = some r) :
    ∃ k < bound, m.FirstStop k ∧ r.machine = m.steps (k + 1) := by
  have hruns := m.runs bound
  rw [runToHalt] at h
  generalize m.run bound = r' at hruns h
  split at h
  · rename_i hended
    cases h
    cases hruns with
    | halted hk hfirst => exact ⟨_, hk, hfirst, rfl⟩
    | faulted hk hfirst => exact ⟨_, hk, hfirst, rfl⟩
    | ongoing hstops => simp [halted_steps hrun hstops] at hended
  · cases h

theorem not_stops_of_runToHalt {bound : Nat} (h : m.runToHalt bound = none) :
    ∀ k < bound, ¬ m.Stops k := by
  have hruns := m.runs bound
  rw [runToHalt] at h
  generalize m.run bound = r at hruns h
  cases hruns with
  | halted _ hfirst hnone =>
      have hhalted := hfirst.stops.resolve_left (not_not.mpr hnone)
      simp [hhalted] at h
  | faulted => simp at h
  | ongoing hstops => exact hstops

end Debugger

end IttyBitty
