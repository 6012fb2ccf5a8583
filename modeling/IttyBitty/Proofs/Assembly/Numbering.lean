import IttyBitty.Proofs.Assembly.Extension
import IttyBitty.Proofs.Assembly.Reporting
import IttyBitty.Proofs.Text.Lines

/-!
# The numbers of lines

An error names a line by its number and shows what is on it. The number is one
more than the line feeds in front of the line, whatever ends the other lines,
and what is shown is the line without its carriage return
(`lines_numbered`).
-/

namespace IttyBitty.Assembly

variable {above raws : List Text} {raw text : Text} {problem : Problem} {number : Nat}

/-- A line of a program is the one that an error is about. -/
structure IsAbout (raws : List Text) (problem : Problem) (number : Nat) (text : Text)
    (place : Nat) (raw : Text) : Prop where
  line : raws[place]? = some raw
  number : number = place + 1
  /-- A wrong shift amount is reported without the text of the line. -/
  text : text = if problem.isAmount then [] else raw

theorem LineFault.numbered {check : Nat}
    (h : LineFault above raw check (.line problem number text)) :
    number = above.length + 1 ∧ text = if problem.isAmount then [] else raw := by
  cases h with
  | emptyLabel => exact ⟨rfl, rfl⟩
  | duplicateLabel => exact ⟨rfl, rfl⟩
  | surplusArgument => exact ⟨rfl, rfl⟩
  | misfit _ hmisfit => exact ⟨rfl, by simp [hmisfit.isAmount]⟩
  | amount _ _ hamount => exact ⟨rfl, by simp [hamount.isAmount]⟩

/-- Whichever pass finds an error, it counts the lines from the first one. -/
theorem Reports.numbered (h : Reports raws (.line problem number text)) :
    ∃ place raw, IsAbout raws problem number text place raw := by
  rcases h with ⟨mid, raw, below, rfl, -, check, hfault, -⟩ |
    ⟨-, above, raw, below, problem', rfl, -, hproblem, herror⟩
  · obtain ⟨hnumber, htext⟩ := hfault.numbered
    exact ⟨mid.length, raw, by simp, hnumber, htext⟩
  · obtain ⟨rfl, hnumber, htext⟩ := Error.line.inj herror
    refine ⟨above.length, raw, by simp, by omega, ?_⟩
    rw [htext, hproblem.isAmount]
    rfl

theorem numbered_of_assemble {source : Source} {t : Text} (hdecode : source.decode = .ok t)
    (h : assemble source = .error (.line problem number text)) :
    ∃ place raw, IsAbout (Text.lines t) problem number text place raw := by
  rw [assemble_of_decode hdecode, assemble_text_eq_error_iff, ofText_eq_some_iff] at h
  exact h.numbered

theorem ne_amountTooLong_of_assemble {source : Source}
    (h : assemble source = .error (.line problem number text)) : problem ≠ .amountTooLong := by
  cases hdecode : source.decode with
  | error fault =>
      rw [assemble, Assembler.assemble, hdecode] at h
      cases h
  | ok t =>
      rw [assemble_of_decode hdecode, assemble_text_eq_error_iff, ofText_eq_some_iff] at h
      exact h.ne_amountTooLong

/-- The lines of a text stand where they are counted. -/
structure Numbered (t : Text) : Prop where
  feedless : ∀ line ∈ Text.lines t, '\n' ∉ line
  /-- The lines are those that stand in the text, each without one carriage return if it ends
  in any. -/
  place : ∀ place line, (Text.lines t)[place]? = some line ↔
    ∃ raw, Text.HasLine t place raw ∧ Text.LosesReturn raw line
  /-- An error is about the line that stands in the place of its number, counted from one. -/
  error : ∀ source problem number text, source.decode = .ok t →
    assemble source = .error (.line problem number text) →
      ∃ place line raw, Text.HasLine t place raw ∧ Text.LosesReturn raw line ∧
        IsAbout (Text.lines t) problem number text place line ∧
        (Error.line problem number text).message = s!"Line {place + 1}: {problem.message}"

theorem numbered (t : Text) : Numbered t where
  feedless _ h := Text.not_mem_of_mem_lines h
  place _ _ := Text.getElem?_lines_iff
  error source problem number text hdecode h := by
    obtain ⟨place, line, habout⟩ := numbered_of_assemble hdecode h
    obtain ⟨raw, hraw, hline⟩ := Text.getElem?_lines_iff.mp habout.line
    refine ⟨place, line, raw, hraw, hline, habout, ?_⟩
    rw [habout.number]
    rfl

/-- Form feeds are not counted. -/
example : assemble (.text "nop // one\x0ctwo\r\nbogus\r\n".toList) =
    .error (.line (.unknownInstruction "bogus".toList) 2 "bogus".toList) := by rfl

/-- **Lines are split off without loss.** A line feed parts a text into the lines up to it and
those behind it. Lines that were written with either end behind each are read back, also when the
last one has no end. Every line keeps its place, which errors count. -/
theorem lines_numbered :
    (∀ s t : Text, Text.lines (s ++ '\n' :: t) = Text.lines (s ++ ['\n']) ++ Text.lines t) ∧
      (∀ rows : List (Text × Text.LineEnd), (∀ row ∈ rows, Text.IsLine row.1) →
        Text.lines (Text.written rows) = rows.map Prod.fst ∧
          ∀ last, Text.IsLine last → last ≠ [] →
            Text.lines (Text.written rows ++ last) = rows.map Prod.fst ++ [last]) ∧
      ∀ t : Text, Numbered t := by
  refine ⟨fun s t => ?_, fun rows hrows => ⟨Text.lines_written hrows, ?_⟩, numbered⟩
  · rw [← List.singleton_append, ← List.append_assoc]
    exact Text.lines_append (.inr List.getLast?_concat) t
  · intro last hlast hne
    rw [Text.lines_written_append hrows, hlast.lines_eq hne]

end IttyBitty.Assembly
