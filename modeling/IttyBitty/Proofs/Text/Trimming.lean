import IttyBitty.Text.Raw
import Mathlib.Data.List.TakeWhile

/-!
# Trimming

Blanks at the ends of a text do not count: the line feed behind a line is
one of them. A text with visible characters at both ends is its own trimmed
form.
-/

namespace IttyBitty

/-- An entry at the end that is stripped off does not count. -/
theorem stripped_append {α : Type} {p : α → Bool} (l : List α) {a : α} (h : p a = true) :
    stripped p (l ++ [a]) = stripped p l := by
  have hdrop : (l ++ [a]).dropWhile p
      = if l.dropWhile p = [] then [] else l.dropWhile p ++ [a] := by
    rw [List.dropWhile_append]
    cases hd : l.dropWhile p <;> simp [h]
  rw [stripped, stripped, hdrop]
  split
  · rename_i hd
    rw [hd]
  · rw [List.reverse_append, List.reverse_singleton, List.singleton_append,
      List.dropWhile_cons_of_pos h]

/-- Stripping puts nothing into a list. -/
theorem mem_of_mem_stripped {α : Type} {p : α → Bool} {l : List α} {a : α}
    (h : a ∈ stripped p l) : a ∈ l := by
  have hkept := List.mem_reverse.mp h
  have hback := (List.dropWhile_sublist _).mem hkept
  exact (List.dropWhile_sublist _).mem (List.mem_reverse.mp hback)

namespace Text

/-- Nothing is left of a text if it has only blanks. -/
theorem trim_eq_nil_iff {t : Text} : trim t = [] ↔ ∀ c ∈ t, isBlank c = true := by
  rw [trim, stripped, List.reverse_eq_nil_iff, List.dropWhile_eq_nil_iff]
  constructor
  · intro h
    have hdrop : t.dropWhile isBlank = [] := by
      -- its first character would be visible
      cases hrest : t.dropWhile isBlank with
      | nil => rfl
      | cons c rest =>
          have hhead := List.head?_dropWhile_not isBlank t
          have hc := h c (by rw [hrest]; simp)
          rw [hrest] at hhead
          simp [hc] at hhead
    exact List.dropWhile_eq_nil_iff.mp hdrop
  · intro h c hc
    exact h c ((List.dropWhile_sublist _).mem (List.mem_reverse.mp hc))

/-- A text that starts and ends visibly has nothing to trim. -/
theorem trim_eq_self {t : Text}
    (hhead : ∀ c ∈ t.head?, isBlank c = false)
    (hlast : ∀ c ∈ t.getLast?, isBlank c = false) : trim t = t := by
  have hdrop : ∀ s : Text, (∀ c ∈ s.head?, isBlank c = false) →
      s.dropWhile isBlank = s := by
    intro s hs
    cases s with
    | nil => rfl
    | cons c rest => rw [List.dropWhile_cons_of_neg (by simp [hs c (by simp)])]
  rw [trim, stripped, hdrop t hhead, hdrop t.reverse (by simpa using hlast),
    List.reverse_reverse]

end Text

end IttyBitty
