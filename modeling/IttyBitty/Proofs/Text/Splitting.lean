import IttyBitty.Text.Blank
import IttyBitty.Text.Lines
import Mathlib.Data.List.Induction

/-!
# Words and lines as pieces of a text

The words of a text are what is left of it when it is split at its blanks and
the empty pieces are dropped; its lines come from splitting it at its line
feeds. Lines that were written out with an end behind each are read back as
they were.
-/

namespace IttyBitty.Text

/-! ## Words -/

private theorem foldr_words (t : Text) :
    t.foldr (fun c run => if isBlank c then ([], closeWord run) else (c :: run.1, run.2))
        ([], [])
      = ((t.splitOnP isBlank).headD [],
          (t.splitOnP isBlank).tail.filter fun word => word ≠ []) := by
  induction t with
  | nil => simp
  | cons c t ih =>
      obtain ⟨word, rest, hsplit⟩ :=
        List.exists_cons_of_ne_nil (List.splitOnP_ne_nil isBlank t)
      rw [List.foldr_cons, ih, List.splitOnP_cons_eq_if_modifyHead, hsplit]
      -- a blank closes the word behind it; any other character goes in front
      by_cases hc : isBlank c = true
      · rw [if_pos hc, if_pos hc]
        cases word <;> simp [closeWord]
      · rw [if_neg hc, if_neg hc]
        rfl

/-- **The words of a text** are the pieces between its blanks that are not empty. -/
theorem words_eq_filter_splitOnP (t : Text) :
    words t = (t.splitOnP isBlank).filter fun word => word ≠ [] := by
  obtain ⟨word, rest, hsplit⟩ :=
    List.exists_cons_of_ne_nil (List.splitOnP_ne_nil isBlank t)
  rw [words, foldr_words, hsplit]
  cases word <;> simp [closeWord]

/-- A blank parts the words. -/
theorem words_append_cons {c : Char} (hc : isBlank c = true) (s t : Text) :
    words (s ++ c :: t) = words s ++ words t := by
  rw [words_eq_filter_splitOnP, List.splitOnP_append_cons s t hc, List.filter_append,
    ← words_eq_filter_splitOnP, ← words_eq_filter_splitOnP]

/-- A text without blanks is its own word. -/
theorem words_of_visible {word : Text} (hne : word ≠ []) (h : ∀ c ∈ word, isBlank c = false) :
    words word = [word] := by
  rw [words_eq_filter_splitOnP, List.splitOnP_eq_singleton h]
  simp [hne]

/-- Words with a space in front of each are read back. -/
theorem words_spaced {ws : List Text} (h : ∀ word ∈ ws, word ≠ [] ∧ ∀ c ∈ word, isBlank c = false) :
    words (ws.flatMap fun word => ' ' :: word) = ws := by
  induction ws using List.reverseRecOn with
  | nil => rfl
  | append_singleton ws word ih =>
      obtain ⟨hws, hword⟩ := List.forall_mem_append.mp h
      obtain ⟨hne, hvisible⟩ := hword word (List.mem_singleton_self word)
      rw [List.flatMap_append, List.flatMap_singleton, words_append_cons (by decide), ih hws,
        words_of_visible hne hvisible]

/-! ## Lines -/

theorem pieces_cons (c : Char) (t : Text) : pieces (c :: t) = consPiece c (pieces t) := rfl

theorem pieces_eq_splitOn (t : Text) : pieces t = t.splitOn '\n' := by
  rw [List.splitOn_eq_splitOnP]
  induction t with
  | nil => simp [pieces]
  | cons c t ih =>
      obtain ⟨piece, rest, hsplit⟩ :=
        List.exists_cons_of_ne_nil (List.splitOnP_ne_nil (· == '\n') t)
      rw [pieces_cons, ih, List.splitOnP_cons_eq_if_modifyHead, hsplit, consPiece]
      by_cases hc : c = '\n' <;> simp [hc]

theorem pieces_ne_nil (t : Text) : pieces t ≠ [] := by
  rw [pieces_eq_splitOn]
  exact List.splitOn_ne_nil _ t

private theorem not_mem_of_mem_pieces {t piece : Text} (h : piece ∈ pieces t) :
    '\n' ∉ piece := by
  induction t generalizing piece with
  | nil => simp_all [pieces]
  | cons c t ih =>
      obtain ⟨first, rest, hpieces⟩ := List.exists_cons_of_ne_nil (pieces_ne_nil t)
      rw [pieces_cons, hpieces, consPiece] at h
      rw [hpieces] at ih
      split at h
      · rcases List.mem_cons.mp h with rfl | h
        · exact List.not_mem_nil
        · exact ih h
      · rename_i hc
        rcases List.mem_cons.mp h with rfl | h
        · exact List.not_mem_cons_of_ne_of_not_mem (Ne.symm hc) (ih (List.mem_cons_self ..))
        · exact ih (List.mem_cons_of_mem first h)

private theorem dropReturn_sublist (line : Text) : (dropReturn line).Sublist line := by
  rw [dropReturn]
  split
  · exact List.dropLast_sublist line
  · exact List.Sublist.refl line

private theorem dropLastEmpty_sublist (ps : List Text) : (dropLastEmpty ps).Sublist ps := by
  rw [dropLastEmpty]
  split
  · exact List.dropLast_sublist ps
  · exact List.Sublist.refl ps

/-- No line holds a line feed. -/
theorem not_mem_of_mem_lines {t line : Text} (h : line ∈ lines t) : '\n' ∉ line := by
  obtain ⟨piece, hpiece, rfl⟩ := List.mem_map.mp h
  intro hmem
  exact not_mem_of_mem_pieces ((dropLastEmpty_sublist _).mem hpiece)
    ((dropReturn_sublist piece).mem hmem)

theorem dropReturn_eq_self {line : Text} (h : line.getLast? ≠ some '\r') :
    dropReturn line = line := by
  rw [dropReturn]
  split
  · rename_i hr
    exact absurd hr h
  · rfl

@[simp] theorem dropReturn_concat (line : Text) : dropReturn (line ++ ['\r']) = line := by
  simp [dropReturn]

/-! ## Lines of two texts -/

/-- A line feed parts the pieces. -/
theorem pieces_append_feed (s t : Text) : pieces (s ++ '\n' :: t) = pieces s ++ pieces t := by
  rw [pieces_eq_splitOn, pieces_eq_splitOn, pieces_eq_splitOn, List.splitOn_append_cons_self]

/-- Without a line feed in it, a text joins the first piece of what is behind it. -/
theorem pieces_append_of_not_mem {s : Text} (h : '\n' ∉ s) {t piece : Text} {rest : List Text}
    (ht : pieces t = piece :: rest) : pieces (s ++ t) = (s ++ piece) :: rest := by
  induction s with
  | nil => exact ht
  | cons c s ih =>
      have hc : c ≠ '\n' := fun hc => h (hc ▸ List.mem_cons_self ..)
      rw [List.cons_append, pieces_cons, ih fun hs => h (List.mem_cons_of_mem c hs), consPiece,
        if_neg hc]
      rfl

/-- A text without a line feed is its own piece. -/
theorem pieces_of_not_mem {s : Text} (h : '\n' ∉ s) : pieces s = [s] := by
  rw [pieces_eq_splitOn, List.splitOn_eq_singleton h]

theorem dropLastEmpty_append (ps : List Text) {qs : List Text} (h : qs ≠ []) :
    dropLastEmpty (ps ++ qs) = ps ++ dropLastEmpty qs := by
  obtain ⟨init, last, rfl⟩ := (List.eq_nil_or_concat qs).resolve_left h
  rw [List.concat_eq_append, ← List.append_assoc]
  cases last <;> simp [dropLastEmpty]

/-- The pieces of a text that are lines, with their carriage returns. -/
def rawLines (t : Text) : List Text := dropLastEmpty (pieces t)

theorem lines_eq_map (t : Text) : lines t = (rawLines t).map dropReturn := rfl

@[simp] theorem rawLines_nil : rawLines [] = [] := rfl

theorem rawLines_append_feed (s t : Text) :
    rawLines (s ++ '\n' :: t) = pieces s ++ rawLines t := by
  rw [rawLines, pieces_append_feed, dropLastEmpty_append _ (pieces_ne_nil t), rawLines]

/-- Without a line feed in it, a text is one line, if anything is on it. -/
theorem rawLines_of_not_mem {s : Text} (h : '\n' ∉ s) (hne : s ≠ []) : rawLines s = [s] := by
  obtain ⟨c, rest, rfl⟩ := List.exists_cons_of_ne_nil hne
  rw [rawLines, pieces_of_not_mem h]
  rfl

/-- **The lines of a text and of one behind it** are those of both together, if the
first is empty or ends in a line feed. -/
theorem lines_append {s : Text} (h : s = [] ∨ s.getLast? = some '\n') (t : Text) :
    lines (s ++ t) = lines s ++ lines t := by
  rcases h with rfl | hlast
  · rfl
  · obtain ⟨u, rfl⟩ := List.getLast?_eq_some_iff.mp hlast
    rw [List.append_assoc, List.singleton_append, lines_eq_map, lines_eq_map, lines_eq_map,
      rawLines_append_feed, rawLines_append_feed, rawLines_nil, List.append_nil, List.map_append]

/-! ## Lines with their ends -/

/-- What may end a line. -/
inductive LineEnd
  | feed
  | returnFeed
  deriving DecidableEq, Repr

/-- The characters of a line end. -/
def LineEnd.text : LineEnd → Text
  | .feed => ['\n']
  | .returnFeed => ['\r', '\n']

/-- A text that can be a line when it is read: it neither holds a line feed nor ends in a
carriage return. -/
structure IsLine (line : Text) : Prop where
  feed : '\n' ∉ line
  last : line.getLast? ≠ some '\r'

/-- Lines one after another, with the end of each. -/
def written (rows : List (Text × LineEnd)) : Text := rows.flatMap fun row => row.1 ++ row.2.text

/-- A last line needs no end, if anything is on it. -/
theorem IsLine.lines_eq {line : Text} (h : IsLine line) (hne : line ≠ []) :
    lines line = [line] := by
  rw [lines_eq_map, rawLines_of_not_mem h.feed hne, List.map_singleton, dropReturn_eq_self h.last]

theorem lines_feed {line : Text} (h : '\n' ∉ line) : lines (line ++ ['\n']) = [dropReturn line] := by
  rw [lines_eq_map, rawLines_append_feed, pieces_of_not_mem h, rawLines_nil, List.append_nil,
    List.map_singleton]

theorem IsLine.lines_ended {line : Text} (h : IsLine line) (e : LineEnd) :
    lines (line ++ e.text) = [line] := by
  cases e with
  | feed => rw [LineEnd.text, lines_feed h.feed, dropReturn_eq_self h.last]
  | returnFeed =>
      have hsplit : line ++ LineEnd.returnFeed.text = (line ++ ['\r']) ++ ['\n'] := by
        simp [LineEnd.text]
      have hfeed : '\n' ∉ line ++ ['\r'] := by simp [h.feed]
      rw [hsplit, lines_feed hfeed, dropReturn_concat]

/-- **Lines that are written with their ends are read back**, whatever is behind them. -/
theorem lines_written_append {rows : List (Text × LineEnd)} (h : ∀ row ∈ rows, IsLine row.1)
    (t : Text) : lines (written rows ++ t) = rows.map Prod.fst ++ lines t := by
  induction rows with
  | nil => rfl
  | cons row rows ih =>
      obtain ⟨hrow, hrows⟩ := List.forall_mem_cons.mp h
      have hcons : written (row :: rows) ++ t = (row.1 ++ row.2.text) ++ (written rows ++ t) := by
        simp [written]
      have hend : (row.1 ++ row.2.text).getLast? = some '\n' := by
        cases row.2 <;> simp [LineEnd.text]
      rw [hcons, lines_append (.inr hend), hrow.lines_ended, ih hrows]
      rfl

theorem lines_written {rows : List (Text × LineEnd)} (h : ∀ row ∈ rows, IsLine row.1) :
    lines (written rows) = rows.map Prod.fst := by
  have happend := lines_written_append h []
  have hempty : lines [] = [] := rfl
  rwa [hempty, List.append_nil, List.append_nil] at happend

/-- Lines written out one after another, each with a line feed behind it. -/
def unlines (ls : List Text) : Text := ls.flatMap fun line => line ++ ['\n']

/-- Lines that are written out are read back, if they hold no line feed and do not end in a
carriage return. -/
theorem lines_unlines {ls : List Text} (hfeed : ∀ line ∈ ls, '\n' ∉ line)
    (hreturn : ∀ line ∈ ls, line.getLast? ≠ some '\r') : lines (unlines ls) = ls := by
  have hwritten : unlines ls = written (ls.map fun line => (line, .feed)) := by
    rw [written, List.flatMap_map]
    rfl
  rw [hwritten, lines_written (List.forall_mem_map.mpr fun l hl => ⟨hfeed l hl, hreturn l hl⟩),
    List.map_map]
  exact List.map_id ls

end IttyBitty.Text
