import IttyBitty.Text.Blank

/-!
# Texts with surrogates

What is typed while a program runs is a sequence of code points, and a code point need not be a
character: the surrogates U+D800 to U+DFFF have no encoding of their own. They can stand in a line
all the same, where they are no blanks and no digits. A text of characters is such a text that holds
none of them.
-/

namespace IttyBitty

/-- A code point: a character, or one of the surrogates, by its place among them. -/
inductive CodePoint
  | char (c : Char)
  | surrogate (n : Fin 2048)
  deriving DecidableEq, Repr

/-- A text that may hold surrogates. -/
abbrev RawText := List CodePoint

namespace CodePoint

/-- The character, if the code point is one. -/
def char? : CodePoint → Option Char
  | .char c => some c
  | .surrogate _ => none

/-- Whether a code point is a blank. -/
def isBlank : CodePoint → Bool
  | .char c => IttyBitty.isBlank c
  | .surrogate _ => false

end CodePoint

namespace RawText

/-- A text of characters. -/
@[coe] def ofText (t : Text) : RawText := t.map .char

/-- The characters of a string. -/
@[coe] def ofString (s : String) : RawText := ofText s.toList

instance : Coe Text RawText := ⟨ofText⟩

instance : Coe String RawText := ⟨ofString⟩

/-- The characters of a text, without the surrogates between them. -/
def chars (t : RawText) : Text := t.filterMap CodePoint.char?

/-- The text as one of characters, if it holds no surrogate. -/
def text? : RawText → Option Text
  | [] => some []
  | .char c :: t => (text? t).map (c :: ·)
  | .surrogate _ :: _ => none

/-- The text without the blanks at its two ends. -/
def trim (t : RawText) : RawText := stripped CodePoint.isBlank t

/-! ## Texts of characters -/

variable {c : Char} {t t' : Text} {s s' : String} {raw : RawText}

@[simp] theorem ofText_nil : ofText [] = [] := rfl

@[simp] theorem ofText_cons : ofText (c :: t) = .char c :: ofText t := rfl

@[simp] theorem ofText_append : ofText (t ++ t') = ofText t ++ ofText t' := List.map_append

@[simp] theorem length_ofText : (ofText t).length = t.length := List.length_map _

@[simp] theorem mem_ofText : .char c ∈ ofText t ↔ c ∈ t := by simp [ofText]

@[simp] theorem ofString_empty : ofString "" = [] := rfl

@[simp] theorem ofString_append : ofString (s ++ s') = ofString s ++ ofString s' := by
  rw [ofString, String.toList_append, ofText_append, ofString, ofString]

@[simp] theorem ofString_ofList : ofString (String.ofList t) = ofText t := by
  rw [ofString, String.toList_ofList]

@[simp] theorem text?_ofText : (ofText t).text? = some t := by
  induction t with
  | nil => rfl
  | cons c t ih => rw [ofText_cons, text?, ih, Option.map_some]

/-- A text that holds no surrogate is one of characters. -/
theorem eq_ofText (h : text? raw = some t) : raw = ofText t := by
  induction raw generalizing t with
  | nil => cases h; rfl
  | cons p raw ih =>
      cases p with
      | surrogate n => cases h
      | char c =>
          rw [text?, Option.map_eq_some_iff] at h
          obtain ⟨t, ht, rfl⟩ := h
          rw [ih ht, ofText_cons]

/-- Any other text holds one. -/
theorem exists_surrogate (h : text? raw = none) : ∃ n, .surrogate n ∈ raw := by
  induction raw with
  | nil => cases h
  | cons p raw ih =>
      cases p with
      | surrogate n => exact ⟨n, List.mem_cons_self⟩
      | char c =>
          rw [text?, Option.map_eq_none_iff] at h
          obtain ⟨n, hn⟩ := ih h
          exact ⟨n, List.mem_cons_of_mem _ hn⟩

@[simp] theorem trim_ofText : (ofText t).trim = ofText (Text.trim t) := by
  have hblank : CodePoint.isBlank ∘ .char = isBlank := rfl
  simp only [trim, Text.trim, stripped, ofText, List.dropWhile_map, ← List.map_reverse, hblank]

end RawText

end IttyBitty
