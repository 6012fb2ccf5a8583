import IttyBitty.Stream
import Mathlib.Data.List.TakeDrop
import Mathlib.Data.List.TakeWhile

/-!
# Reading lines

An input shows its lines one after another. A line that is read is the
beginning of the unread text up to its first line feed, or all of it where
there is none; nothing of it is left and nothing else is gone. On an input
that works, one line can be read as long as there is text.
-/

namespace IttyBitty

/-- The line that has been read, if there is one. -/
def Reading.line? : Reading → Option RawText
  | .line t => some t
  | _ => none

namespace Input

/-- `rest` is what a read of `line` leaves of an input: the line ends in its
only line feed or, without one, where the text does. -/
structure Yields (input : Input) (line : RawText) (rest : Input) : Prop where
  unread : input.unread = line ++ rest.unread
  ends : (∃ body, line = body ++ [.char '\n'] ∧ .char '\n' ∉ body) ∨
    (line ≠ [] ∧ .char '\n' ∉ line ∧ rest.unread = [])

/-- No read of the input fails. -/
structure Works (input : Input) : Prop where
  whole : input.broken = false
  clear : Piece.failure ∉ input.pieces

@[simp] theorem unread_text (t : RawText) (rest : List Piece) (broken : Bool) :
    unread ⟨.text t :: rest, broken⟩ = t ++ unread ⟨rest, broken⟩ := rfl

theorem works_ofText (t : RawText) : (ofText t).Works :=
  ⟨rfl, by simp [ofText]⟩

/-! ## What a read leaves -/

private theorem bne_newline {s : RawText} (h : .char '\n' ∉ s) :
    ∀ c ∈ s, (c != .char '\n') = true := by
  intro c hc
  rw [bne_iff_ne]
  rintro rfl
  exact h hc

/-- A text is one line without its end, or it is cut at its first line
feed. -/
private theorem span_newline (t : RawText) :
    (.char '\n' ∉ t ∧ t.span (· != .char '\n') = (t, [])) ∨
      ∃ head tail, .char '\n' ∉ head ∧ t = head ++ .char '\n' :: tail ∧
        t.span (· != .char '\n') = (head, .char '\n' :: tail) := by
  by_cases h : .char '\n' ∈ t
  · obtain ⟨head, tail, rfl, hhead⟩ := List.eq_append_cons_of_mem h
    refine .inr ⟨head, tail, hhead, rfl, ?_⟩
    rw [List.span_eq_takeWhile_dropWhile,
      List.takeWhile_append_of_pos (bne_newline hhead),
      List.dropWhile_append_of_pos (bne_newline hhead)]
    simp
  · refine .inl ⟨h, ?_⟩
    rw [List.span_eq_takeWhile_dropWhile,
      List.takeWhile_eq_self_iff.mpr (bne_newline h),
      List.dropWhile_eq_nil_iff.mpr (bne_newline h)]

/-- A line comes off the front of the unread text; `start` is what has been
read of it already. -/
theorem readFrom_line {broken : Bool} {start line : RawText}
    {pieces rest : List Piece} (hstart : .char '\n' ∉ start)
    (h : readFrom broken start pieces = (.line line, rest)) :
    start ++ unread ⟨pieces, broken⟩ = line ++ unread ⟨rest, broken⟩ ∧
      ((∃ body, line = body ++ [.char '\n'] ∧ .char '\n' ∉ body) ∨
        (line ≠ [] ∧ .char '\n' ∉ line ∧ unread ⟨rest, broken⟩ = [])) := by
  induction pieces generalizing start with
  | nil =>
      simp only [readFrom] at h
      split at h
      · cases h
      · split at h
        · cases h
        · rename_i hne
          cases h
          exact ⟨rfl, .inr ⟨by simpa using hne, hstart, rfl⟩⟩
  | cons p pieces ih =>
      cases p with
      | failure => cases h
      | text t =>
          simp only [readFrom] at h
          rcases span_newline t with ⟨hclean, hspan⟩ | ⟨head, tail, hclean, rfl, hspan⟩
          · rw [hspan] at h
            have := ih (by simp [hstart, hclean]) h
            rwa [List.append_assoc] at this
          · rw [hspan] at h
            cases h
            refine ⟨by simp, .inl ⟨_, rfl, ?_⟩⟩
            simp [hstart, hclean]

/-- A read finds the end only where no text is left. -/
theorem readFrom_ended {broken : Bool} {start : RawText} {pieces rest : List Piece}
    (h : readFrom broken start pieces = (.ended, rest)) :
    start = [] ∧ unread ⟨pieces, broken⟩ = [] ∧ rest = [] := by
  induction pieces generalizing start with
  | nil =>
      simp only [readFrom] at h
      split at h
      · cases h
      · split at h
        · rename_i he
          cases h
          exact ⟨by simpa using he, rfl, rfl⟩
        · cases h
  | cons p pieces ih =>
      cases p with
      | failure => cases h
      | text t =>
          simp only [readFrom] at h
          rcases span_newline t with ⟨-, hspan⟩ | ⟨head, tail, -, -, hspan⟩
          · rw [hspan] at h
            obtain ⟨hstart, hrest, hpieces⟩ := ih h
            rw [List.append_eq_nil_iff] at hstart
            rw [unread_text, hstart.2, hrest]
            exact ⟨hstart.1, rfl, hpieces⟩
          · rw [hspan] at h
            cases h

/-- Pieces without a failure in them do not fail, and no failure turns up
behind a line. -/
theorem readFrom_clear (start : RawText) {pieces : List Piece}
    (h : Piece.failure ∉ pieces) :
    (readFrom false start pieces).1 ≠ .failed ∧
      Piece.failure ∉ (readFrom false start pieces).2 := by
  induction pieces generalizing start with
  | nil =>
      simp only [readFrom, Bool.false_eq_true, if_false]
      split <;> simp
  | cons p pieces ih =>
      rw [List.mem_cons, not_or] at h
      cases p with
      | failure => exact absurd rfl h.1
      | text t =>
          simp only [readFrom]
          rcases span_newline t with ⟨-, hspan⟩ | ⟨head, tail, -, -, hspan⟩
          · rw [hspan]
            exact ih _ h.2
          · rw [hspan]
            simp [h.2]

/-- **A line that is read is taken off the unread text**, and nothing else
is. -/
theorem yields_of_readLine {input rest : Input} {line : RawText}
    (h : input.readLine = (.line line, rest)) : input.Yields line rest := by
  obtain ⟨pieces, broken⟩ := input
  simp only [readLine, Prod.mk.injEq] at h
  obtain ⟨hline, rfl⟩ := h
  have hfrom : readFrom broken [] pieces = (.line line, (readFrom broken [] pieces).2) :=
    Prod.ext hline rfl
  have hread := readFrom_line List.not_mem_nil hfrom
  exact ⟨hread.1, hread.2⟩

/-- No read brings anything into an input that is not there. -/
theorem unread_readLine_subset (input : Input) : input.readLine.2.unread ⊆ input.unread := by
  obtain ⟨pieces, broken⟩ := input
  show unread ⟨(readFrom broken [] pieces).2, broken⟩ ⊆ unread ⟨pieces, broken⟩
  generalize ([] : RawText) = start
  induction pieces generalizing start with
  | nil =>
      have hnil : (readFrom broken start []).2 = [] := by
        rw [readFrom]
        split
        · rfl
        · split <;> rfl
      rw [hnil]
      exact List.Subset.refl _
  | cons p pieces ih =>
      cases p with
      | failure => exact List.Subset.refl _
      | text t =>
          rw [readFrom, unread_text]
          rcases span_newline t with ⟨-, hspan⟩ | ⟨head, tail, -, rfl, hspan⟩
          · rw [hspan]
            exact List.Subset.trans (ih _) (List.subset_append_right ..)
          · rw [hspan, unread_text, List.append_cons, List.append_assoc]
            exact List.subset_append_right ..

/-! ## Inputs that work -/

/-- The line in front of a text, with its line feed. -/
def firstLine (t : RawText) : RawText :=
  t.takeWhile (· != .char '\n') ++ (t.dropWhile (· != .char '\n')).take 1

/-- What follows the line in front of a text. -/
def afterLine (t : RawText) : RawText := (t.dropWhile (· != .char '\n')).drop 1

/-- A line and what it leaves are determined by the text they come from. -/
theorem Yields.eq {input rest : Input} {line : RawText} (h : input.Yields line rest) :
    line = firstLine input.unread ∧ rest.unread = afterLine input.unread := by
  rw [h.unread, firstLine, afterLine]
  rcases h.ends with ⟨body, rfl, hbody⟩ | ⟨-, hline, hrest⟩
  · rw [List.append_assoc, List.takeWhile_append_of_pos (bne_newline hbody),
      List.dropWhile_append_of_pos (bne_newline hbody)]
    simp
  · rw [hrest, List.append_nil, List.takeWhile_eq_self_iff.mpr (bne_newline hline),
      List.dropWhile_eq_nil_iff.mpr (bne_newline hline)]
    simp

/-- **An input that works shows the line in front of its text**, or its end
where no text is left, and goes on working. -/
theorem Works.readLine {input : Input} (h : input.Works) :
    ∃ rest : Input, rest.Works ∧ rest.unread = afterLine input.unread ∧
      input.readLine =
        (if input.unread = [] then .ended else .line (firstLine input.unread), rest) := by
  obtain ⟨pieces, broken⟩ := input
  obtain ⟨rfl, hclear⟩ := h
  have hread := readFrom_clear [] hclear
  cases hr : readFrom false [] pieces with
  | mk reading rest =>
      rw [hr] at hread
      have hline : Input.readLine ⟨pieces, false⟩ = (reading, ⟨rest, false⟩) := by
        simp [Input.readLine, hr]
      refine ⟨⟨rest, false⟩, ⟨rfl, hread.2⟩, ?_⟩
      cases reading with
      | failed => exact absurd rfl hread.1
      | ended =>
          obtain ⟨-, hnil, rfl⟩ := readFrom_ended hr
          rw [hline, hnil]
          exact ⟨rfl, rfl⟩
      | line line =>
          have hyields := yields_of_readLine hline
          have hne : unread ⟨pieces, false⟩ ≠ [] := by
            rw [hyields.unread]
            rcases hyields.ends with ⟨body, rfl, -⟩ | ⟨hne, -⟩
            · simp
            · simp [hne]
          rw [hline, if_neg hne, ← hyields.eq.1]
          exact ⟨hyields.eq.2, rfl⟩

/-! ## The lines that are left -/

/-- The lines of a text, each with the line feed that ends it. -/
def linesOf : RawText → List RawText
  | [] => []
  | c :: t =>
    if c = .char '\n' then [c] :: linesOf t
    else
      match linesOf t with
      | [] => [[c]]
      | line :: lines => (c :: line) :: lines

/-- The lines that are left to read. -/
def toRead (input : Input) : List RawText := linesOf input.unread

theorem linesOf_line {body : RawText} (h : .char '\n' ∉ body) (t : RawText) :
    linesOf (body ++ .char '\n' :: t) = (body ++ [.char '\n']) :: linesOf t := by
  induction body with
  | nil => rfl
  | cons c body ih =>
      rw [List.mem_cons, not_or] at h
      rw [List.cons_append, linesOf, if_neg (Ne.symm h.1), ih h.2]
      rfl

theorem linesOf_last {t : RawText} (hne : t ≠ []) (h : .char '\n' ∉ t) : linesOf t = [t] := by
  induction t with
  | nil => exact absurd rfl hne
  | cons c t ih =>
      rw [List.mem_cons, not_or] at h
      rw [linesOf, if_neg (Ne.symm h.1)]
      cases t with
      | nil => rfl
      | cons c' t => rw [ih (List.cons_ne_nil _ _) h.2]

/-- The lines of a text are all of it. -/
theorem flatten_linesOf (t : RawText) : (linesOf t).flatten = t := by
  induction t with
  | nil => rfl
  | cons c t ih =>
      rw [linesOf]
      split
      · rw [List.flatten_cons, ih]
        rfl
      · cases hlines : linesOf t with
        | nil =>
            rw [hlines] at ih
            rw [← ih]
            rfl
        | cons line lines =>
            rw [hlines] at ih
            rw [← ih]
            rfl

/-- **A read takes the first of the lines that are left.** -/
theorem Yields.toRead {input rest : Input} {line : RawText} (h : input.Yields line rest) :
    input.toRead = line :: rest.toRead := by
  rw [Input.toRead, h.unread]
  rcases h.ends with ⟨body, rfl, hbody⟩ | ⟨hne, hline, hrest⟩
  · rw [List.append_assoc, List.singleton_append, linesOf_line hbody]
    rfl
  · rw [hrest, List.append_nil, linesOf_last hne hline, Input.toRead, hrest]
    rfl

/-- A reading on an input that works takes at most one line off it. -/
theorem Works.toRead {input : Input} (h : input.Works) :
    input.toRead = input.readLine.1.line?.toList ++ input.readLine.2.toRead := by
  obtain ⟨rest, -, hunread, hread⟩ := h.readLine
  by_cases hnil : input.unread = []
  · rw [if_pos hnil] at hread
    rw [hread, Input.toRead, Input.toRead, hunread, hnil]
    rfl
  · rw [if_neg hnil] at hread
    rw [hread, (yields_of_readLine hread).toRead]
    rfl

end Input

end IttyBitty
