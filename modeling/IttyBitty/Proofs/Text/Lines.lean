import IttyBitty.Proofs.Text.Splitting

/-!
# Lines by their places

Where a line stands is told by the line feeds of the text alone: its place is
the number of those in front of it. The lines that are read are the lines in
the places from zero on, in order, each without the carriage return at its end
(`getElem?_lines_iff`).
-/

namespace IttyBitty.Text

/-- A text has a line in a place. The last of the line feeds above it is right
in front of it; the next one is right behind it, unless the text ends there.
Nothing at all behind the last line feed is no line. -/
inductive HasLine : Text → Nat → Text → Prop
  | intro {above line below : Text} (habove : above = [] ∨ above.getLast? = some '\n')
      (hline : '\n' ∉ line) (hbelow : below.head? = some '\n' ∨ below = [] ∧ line ≠ []) :
      HasLine (above ++ (line ++ below)) (above.count '\n') line

/-- A line loses one carriage return if it ends in one, and nothing otherwise. -/
inductive LosesReturn : Text → Text → Prop
  | dropped (line : Text) : LosesReturn (line ++ ['\r']) line
  | kept {line : Text} (h : line.getLast? ≠ some '\r') : LosesReturn line line

theorem losesReturn_iff {raw line : Text} : LosesReturn raw line ↔ line = dropReturn raw := by
  constructor
  · rintro (_ | h)
    · exact (dropReturn_concat line).symm
    · exact (dropReturn_eq_self h).symm
  · rintro rfl
    rw [dropReturn]
    split
    · rename_i hlast
      obtain ⟨line, rfl⟩ := List.getLast?_eq_some_iff.mp hlast
      rw [List.dropLast_concat]
      exact .dropped line
    · rename_i hlast
      exact .kept hlast

/-! ## Lines in their places -/

/-- A line feed more is a piece more. -/
theorem length_pieces (t : Text) : (pieces t).length = t.count '\n' + 1 := by
  induction t with
  | nil => rfl
  | cons c t ih =>
      obtain ⟨piece, rest, hpieces⟩ := List.exists_cons_of_ne_nil (pieces_ne_nil t)
      rw [hpieces] at ih
      rw [pieces_cons, hpieces, consPiece, List.count_cons]
      by_cases hc : c = '\n' <;> simp_all

/-- Where a line stands it is read. -/
theorem HasLine.getElem?_rawLines {t line : Text} {place : Nat} (h : HasLine t place line) :
    (rawLines t)[place]? = some line := by
  obtain @⟨above, line, below, habove, hline, hbelow⟩ := h
  have hfirst : (rawLines (line ++ below))[0]? = some line := by
    rcases hbelow with hhead | ⟨rfl, hne⟩
    · obtain ⟨rest, rfl⟩ := List.head?_eq_some_iff.mp hhead
      rw [rawLines_append_feed, pieces_of_not_mem hline]
      rfl
    · rw [List.append_nil, rawLines_of_not_mem hline hne]
      rfl
  rcases habove with rfl | hlast
  · exact hfirst
  · obtain ⟨s, rfl⟩ := List.getLast?_eq_some_iff.mp hlast
    have hcount : (s ++ ['\n']).count '\n' = (pieces s).length := by
      rw [length_pieces, List.count_append, List.count_singleton_self]
    rw [hcount, List.append_assoc, List.singleton_append, rawLines_append_feed,
      List.getElem?_append_right (Nat.le_refl _), Nat.sub_self, hfirst]

/-- A line more above. -/
theorem HasLine.below {t line first : Text} {place : Nat} (h : HasLine t place line)
    (hfirst : '\n' ∉ first) : HasLine (first ++ '\n' :: t) (place + 1) line := by
  obtain @⟨above, line, below, habove, hline, hbelow⟩ := h
  have hcount : (first ++ '\n' :: above).count '\n' = above.count '\n' + 1 := by
    rw [List.count_append, List.count_cons_self, List.count_eq_zero_of_not_mem hfirst,
      Nat.zero_add]
  have hlast : (first ++ '\n' :: above).getLast? = some '\n' := by
    rcases habove with rfl | hlast
    · exact List.getLast?_concat
    · rw [List.getLast?_append, List.getLast?_cons, hlast]
      rfl
  have hsplit : first ++ '\n' :: (above ++ (line ++ below))
      = (first ++ '\n' :: above) ++ (line ++ below) := by simp
  rw [hsplit, ← hcount]
  exact .intro (.inr hlast) hline hbelow

/-- What is read stands there. The text is taken apart at its first line feed. -/
theorem hasLine_of_getElem? {t line : Text} {place : Nat}
    (h : (rawLines t)[place]? = some line) : HasLine t place line := by
  induction hlength : t.length using Nat.strongRecOn generalizing t place with
  | _ n ih =>
      subst hlength
      by_cases hfeed : '\n' ∈ t
      · obtain ⟨first, rest, rfl, hfirst⟩ := List.eq_append_cons_of_mem hfeed
        rw [rawLines_append_feed, pieces_of_not_mem hfirst] at h
        cases place with
        | zero =>
            obtain rfl : first = line := by simpa using h
            exact .intro (.inl rfl) hfirst (.inl rfl)
        | succ place =>
            have hshorter : rest.length < (first ++ '\n' :: rest).length := by
              rw [List.length_append, List.length_cons]
              omega
            exact (ih rest.length hshorter h rfl).below hfirst
      · by_cases hne : t = []
        · subst hne
          cases h
        · rw [rawLines_of_not_mem hfeed hne] at h
          cases place with
          | succ place => cases h
          | zero =>
              obtain rfl : t = line := by simpa using h
              have hwhole : HasLine ([] ++ (t ++ [])) 0 t :=
                .intro (.inl rfl) hfeed (.inr ⟨rfl, hne⟩)
              rwa [List.append_nil] at hwhole

/-! ## Lines that are read -/

/-- **The line in a place** is the one that stands there, without its carriage return. -/
theorem getElem?_lines_iff {t line : Text} {place : Nat} :
    (lines t)[place]? = some line ↔ ∃ raw, HasLine t place raw ∧ LosesReturn raw line := by
  rw [lines_eq_map, List.getElem?_map, Option.map_eq_some_iff]
  constructor
  · rintro ⟨raw, hraw, rfl⟩
    exact ⟨raw, hasLine_of_getElem? hraw, losesReturn_iff.mpr rfl⟩
  · rintro ⟨raw, hraw, hline⟩
    exact ⟨raw, hraw.getElem?_rawLines, (losesReturn_iff.mp hline).symm⟩

/-- Two carriage returns on one line, and an empty line above the last. -/
example : lines "one\r\r\n\ntwo".toList = ["one\r".toList, [], "two".toList] := by decide

end IttyBitty.Text
