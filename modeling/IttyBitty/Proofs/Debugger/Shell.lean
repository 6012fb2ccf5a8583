import IttyBitty.Proofs.Debugger.Outcomes
import IttyBitty.Proofs.Machine.Answers
import IttyBitty.Proofs.Machine.Refinement

/-!
# The shell on streams that work

A debugger that shares the input of its machine reads commands from what the machine
leaves of it. No step makes a stream fail that works, so neither does a shell.
-/

namespace IttyBitty

namespace Machine

variable {m m' : Machine}

/-- **Streams that work go on working**, whatever the machine does. -/
theorem Connected.steps (h : m.Connected) (n : Nat) : (m.steps n).Connected :=
  ⟨(m.exchanges_steps n).works h.input, (m.mode_steps n).trans h.output⟩

theorem Connected.twins (h : m.Connected) (htwins : m.Twins m') : m'.Connected :=
  ⟨by rw [htwins.input]; exact h.input, htwins.mode.trans h.output⟩

end Machine

namespace Debugger

variable {d d' : Debugger}

/-- A debugger on the input of its machine, whose streams work. -/
structure Shares (d : Debugger) : Prop where
  keyboard : d.keyboard = .ofMachine
  connected : d.machine.Connected

theorem Shares.print (h : d.Shares) (text : RawText) : (d.print text).Shares :=
  ⟨(d.keyboard_print text).trans h.keyboard, h.connected.twins (d.alike_print text).toTwins⟩

theorem Driven.shares {n : Nat} (hdriven : d.Driven d' n) (h : d.Shares) : d'.Shares :=
  ⟨hdriven.keyboard.trans h.keyboard, (h.connected.steps n).twins hdriven.alike.toTwins⟩

/-- A line can be read, or there is none. -/
theorem Shares.readLine (h : d.Shares) : d.readLine.1 ≠ .failed ∧ d.readLine.2.Shares := by
  obtain ⟨rest, hworks, -, hread⟩ := h.connected.input.readLine
  rw [Debugger.readLine, h.keyboard, hread]
  refine ⟨?_, rfl, hworks, h.connected.output⟩
  dsimp only
  split <;> simp

/-- **A shell on streams that work does not end for a failure of its input.** -/
theorem Shares.session (h : d.Shares) (prompt : RawText) (bound lines : Nat) :
    (d.session prompt bound lines).2 ≠ .inputFailed := by
  induction lines generalizing d with
  | zero => nofun
  | succ lines ih =>
      obtain ⟨hreading, hshares⟩ := (h.print prompt).readLine
      rw [Debugger.session]
      rcases hread : (d.print prompt).readLine with ⟨reading, d₁⟩
      rw [hread] at hreading hshares
      cases reading with
      | failed => exact absurd rfl hreading
      | ended => nofun
      | line line =>
          have hobeyed := d₁.obeyed bound line
          rcases hline : d₁.executeLine bound line with ⟨d₂, outcome⟩
          rw [hline] at hobeyed
          have hafter (hfinished : outcome ≠ .unfinished) : d₂.Shares := by
            obtain ⟨n, -, hdriven⟩ := hobeyed.driven hfinished
            exact hdriven.shares hshares
          simp only [hline]
          cases outcome with
          | continues => exact ih (hafter nofun)
          | quits => nofun
          | failed error =>
              simp only
              cases error.escape? with
              | some fault => nofun
              | none => exact ih ((hafter nofun).print _)
          | unfinished => nofun

/-! ## Faults that end a shell -/

theorem unread_readLine_subset (d : Debugger) :
    d.readLine.2.machine.input.unread ⊆ d.machine.input.unread := by
  rw [readLine]
  split
  · exact List.Subset.refl _
  · exact d.machine.input.unread_readLine_subset

theorem Driven.left {n : Nat} (h : d.Driven d' n) :
    d'.machine.input.unread ⊆ d.machine.input.unread := by
  rw [h.alike.toTwins.input]
  exact (d.machine.exchanges_steps n).left

/-- **A fault that ends a shell** is not the machine's own, and there has been a surrogate in the
input of the machine. -/
theorem surrogate_of_session {prompt : RawText} {bound lines : Nat} {fault : Fault}
    (h : (d.session prompt bound lines).2 = .escaped fault) :
    fault.isOwn = false ∧ ∃ n, .surrogate n ∈ d.machine.input.unread := by
  induction lines generalizing d with
  | zero => cases h
  | succ lines ih =>
      -- what is in the input of a later machine has been in that of the first one
      have hlater {d' : Debugger} (hleft : d'.machine.input.unread ⊆ d.machine.input.unread)
          (h : (d'.session prompt bound lines).2 = .escaped fault) :
          fault.isOwn = false ∧ ∃ n, .surrogate n ∈ d.machine.input.unread := by
        obtain ⟨hown, n, hn⟩ := ih h
        exact ⟨hown, n, hleft hn⟩
      have hprint (d : Debugger) (text : RawText) :
          (d.print text).machine.input.unread ⊆ d.machine.input.unread := by
        rw [(d.alike_print text).toTwins.input]
        exact List.Subset.refl _
      have hread := List.Subset.trans (unread_readLine_subset (d.print prompt)) (hprint d prompt)
      rw [session] at h
      rcases hreading : (d.print prompt).readLine with ⟨reading, d₁⟩
      rw [hreading] at hread h
      cases reading with
      | failed => cases h
      | ended => cases h
      | line line =>
          have hobeyed := d₁.obeyed bound line
          rcases hline : d₁.executeLine bound line with ⟨d₂, outcome⟩
          rw [hline] at hobeyed
          simp only [hline] at h
          have hleft (hfinished : outcome ≠ .unfinished) :
              d₂.machine.input.unread ⊆ d.machine.input.unread := by
            obtain ⟨n, -, hdriven⟩ := hobeyed.driven hfinished
            exact List.Subset.trans hdriven.left hread
          cases outcome with
          | continues => exact hlater (hleft nofun) h
          | quits => cases h
          | unfinished => cases h
          | failed error =>
              cases hescape : error.escape? with
              | none =>
                  simp only [hescape] at h
                  exact hlater (List.Subset.trans (hprint d₂ _) (hleft nofun)) h
              | some fault' =>
                  simp only [hescape] at h
                  cases h
                  obtain ⟨rfl, hown⟩ := Error.of_escape? hescape
                  rcases hobeyed.of_fault rfl with ⟨pc, rfl⟩ | ⟨k, -, hfault⟩
                  · cases hown
                  · obtain ⟨n, hn⟩ := Machine.surrogate_of_steps hfault hown
                    exact ⟨hown, n, hread hn⟩

end Debugger

end IttyBitty
