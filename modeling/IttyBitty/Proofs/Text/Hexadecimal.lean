import IttyBitty.Text.Hex
import Mathlib.Data.Nat.Digits.Defs

/-!
# Hexadecimal numerals as digits of a number

The reader and the writer of numerals against the sixteen figures in a row:
the value of a figure is its place there. A written word is its four digits
to the base sixteen, and reading it gives the word back.
-/

namespace IttyBitty.Hex

/-- The sixteen figures in the order of their values. -/
def figures : Text := "0123456789abcdef".toList

/-- The figures in upper case. -/
def capitals : Text := "0123456789ABCDEF".toList

/-- The place of a character among the figures, in either case. -/
def place? (c : Char) : Option Nat := (figures.idxOf? c).or (capitals.idxOf? c)

/-! ## Reading a figure -/

private theorem toNat_lt_of_mem {c : Char} (h : c ∈ figures ∨ c ∈ capitals) :
    c.toNat < 128 := by
  have hall : (figures ++ capitals).all (·.toNat < 128) = true := by decide
  exact of_decide_eq_true (List.all_eq_true.mp hall c (List.mem_append.mpr h))

private theorem place?_of_le {c : Char} (h : 128 ≤ c.toNat) : place? c = none := by
  have hf : c ∉ figures := fun hc => by
    have := toNat_lt_of_mem (.inl hc)
    omega
  have hc : c ∉ capitals := fun hc => by
    have := toNat_lt_of_mem (.inr hc)
    omega
  rw [place?, List.idxOf?_eq_none_iff.mpr hf, List.idxOf?_eq_none_iff.mpr hc]
  rfl

private theorem digit?_of_le {c : Char} (h : 128 ≤ c.toNat) : digit? c = none := by
  have hle : ∀ d : Char, d.toNat < 128 → ¬ c ≤ d := fun d hd hcd => by
    have : c.toNat ≤ d.toNat := hcd
    omega
  rw [digit?, if_neg fun hc => hle '9' (by decide) hc.2,
    if_neg fun hc => hle 'f' (by decide) hc.2,
    if_neg fun hc => hle 'F' (by decide) hc.2]

/-- **A figure counts for its place**, and nothing else is a figure. -/
theorem digit?_eq_place? (c : Char) : digit? c = place? c := by
  rcases Nat.lt_or_ge c.toNat 128 with h | h
  · -- the ASCII characters one by one
    have hall : ∀ n < 128, digit? (Char.ofNat n) = place? (Char.ofNat n) := by
      decide +kernel
    have hc := hall c.toNat h
    rwa [Char.ofNat_toNat] at hc
  · rw [digit?_of_le h, place?_of_le h]

theorem isDigit_eq_place? (c : Char) : isDigit c = (place? c).isSome := by
  rw [isDigit, digit?_eq_place?]

theorem place?_lt {c : Char} {d : Nat} (h : place? c = some d) : d < 16 := by
  rw [place?, Option.or_eq_some_iff] at h
  rcases h with h | ⟨-, h⟩
  · exact (List.findIdx?_eq_some_iff_getElem.mp h).1
  · exact (List.findIdx?_eq_some_iff_getElem.mp h).1

/-! ## The value of a numeral -/

/-- The value of a run of figures, in the library's account of digits to a
base: lowest digit first. -/
theorem number_eq_ofDigits (t : Text) :
    number t = Nat.ofDigits 16 (t.map fun c => (place? c).getD 0).reverse := by
  rw [number, Nat.ofDigits_eq_foldr, List.foldr_reverse, List.foldl_map]
  simp only [digit?_eq_place?, Nat.cast_id, Nat.add_comm]

/-- A numeral of at most four figures is a word. -/
theorem number_lt {t : Text} (h : t.length ≤ 4) : number t < 65536 := by
  rw [number_eq_ofDigits]
  have hplace : ∀ c, (place? c).getD 0 < 16 := by
    intro c
    cases hc : place? c with
    | none => simp
    | some d => exact place?_lt hc
  have hlt := Nat.ofDigits_lt_base_pow_length (b := 16) (by decide)
    (l := (t.map fun c => (place? c).getD 0).reverse)
    (by simpa using fun c _ => hplace c)
  refine lt_of_lt_of_le hlt ?_
  rw [List.length_reverse, List.length_map]
  exact Nat.pow_le_pow_right (by decide) h

/-! ## Writing a word -/

/-- The figure of a value. -/
def figure (d : Nat) : Char := figures.getD d '0'

private theorem digitChar_eq_figure : ∀ d < 16, Nat.digitChar d = figure d := by
  decide

/-- The digits of a number, the last one apart. -/
private theorem toDigits_sixteen (n : Nat) : Nat.toDigits 16 n =
    if n < 16 then [Nat.digitChar n]
    else Nat.toDigits 16 (n / 16) ++ [Nat.digitChar (n % 16)] :=
  Nat.toDigits_eq_if (by decide)

/-- What is true of every figure is true of the characters of a numeral. -/
theorem forall_mem_lower (P : Char → Prop) (h : ∀ d < 16, P (Nat.digitChar d)) (width n : Nat) :
    ∀ c ∈ lower width n, P c := by
  have hdigits : ∀ n, ∀ c ∈ Nat.toDigits 16 n, P c := by
    intro n
    induction n using Nat.strongRecOn with
    | _ n ih =>
        intro c hc
        rw [toDigits_sixteen] at hc
        split at hc
        · rw [List.mem_singleton.mp hc]
          exact h n (by omega)
        · rcases List.mem_append.mp hc with hc | hc
          · exact ih (n / 16) (by omega) c hc
          · rw [List.mem_singleton.mp hc]
            exact h (n % 16) (by omega)
  intro c hc
  rcases List.mem_append.mp hc with hzero | hmem
  · rw [(List.mem_replicate.mp hzero).2]
    exact h 0 (by decide)
  · exact hdigits n c hmem

/-- A numeral is made of digits, whatever its length. -/
theorem isDigit_of_mem_lower {width n : Nat} {c : Char} (h : c ∈ lower width n) :
    isDigit c = true := by
  have hfigure : ∀ d < 16, isDigit (Nat.digitChar d) = true := by decide
  exact forall_mem_lower (isDigit · = true) hfigure width n c h

/-- A numeral is made of lower-case figures. -/
theorem mem_figures_of_mem_lower {width n : Nat} {c : Char} (h : c ∈ lower width n) :
    c ∈ figures := by
  have hfigure : ∀ d < 16, Nat.digitChar d ∈ figures := by decide
  exact forall_mem_lower (· ∈ figures) hfigure width n c h

theorem length_lower (width n : Nat) : width ≤ (lower width n).length := by
  rw [lower, padded, List.length_append, List.length_replicate]
  omega

/-- **A numeral stands for its number**, whatever its width. -/
theorem number_lower (width n : Nat) : number (lower width n) = n := by
  have hzeros : ∀ k, (List.replicate k '0').foldl
      (fun n c => 16 * n + (digit? c).getD 0) 0 = 0 := by
    intro k
    induction k with
    | zero => rfl
    | succ k ih => exact ih
  have hdigit : ∀ d < 16, (digit? (Nat.digitChar d)).getD 0 = d := by decide
  have hdigits : ∀ n, number (Nat.toDigits 16 n) = n := by
    intro n
    induction n using Nat.strongRecOn with
    | _ n ih =>
        rw [toDigits_sixteen]
        split
        · exact (Nat.zero_add _).trans (hdigit n (by omega))
        · have hfront := ih (n / 16) (by omega)
          rw [number] at hfront
          rw [number, List.foldl_append, hfront, List.foldl_cons, List.foldl_nil,
            hdigit (n % 16) (by omega)]
          omega
  rw [lower, padded, number, List.foldl_append, hzeros]
  exact hdigits n

/-- A number in a fixed number of lower-case figures. -/
structure IsNumeral (width n : Nat) (t : Text) : Prop where
  length : t.length = width
  figures : ∀ c ∈ t, c ∈ Hex.figures
  value : number t = n

/-- A number that needs no more figures than the width has exactly as many. -/
theorem isNumeral_lower {width n : Nat} (hwidth : 0 < width) (h : n < 16 ^ width) :
    IsNumeral width n (lower width n) := by
  refine ⟨?_, fun _ hc => mem_figures_of_mem_lower hc, number_lower width n⟩
  have hshort := Nat.toDigits_length 16 n width hwidth h
  rw [lower, padded, List.length_append, List.length_replicate]
  omega

/-- A numeral that is longer than its least width has no zero in front. -/
theorem head?_lower {width n : Nat} (hwidth : 0 < width) (h : width < (lower width n).length) :
    (lower width n).head? ≠ some '0' := by
  have hfigure : ∀ d < 16, d ≠ 0 → Nat.digitChar d ≠ '0' := by decide
  have hhead : ∀ n ≠ 0, (Nat.toDigits 16 n).head? ≠ some '0' := by
    intro n
    induction n using Nat.strongRecOn with
    | _ n ih =>
        intro hn
        rw [toDigits_sixteen]
        split
        · simpa using hfigure n (by omega) hn
        · obtain ⟨c, rest, hfront⟩ :=
            List.exists_cons_of_ne_nil (Nat.toDigits_ne_nil (n := n / 16) (b := 16))
          have hne := ih (n / 16) (by omega) (by omega)
          rw [hfront] at hne ⊢
          exact hne
  rw [lower, padded, List.length_append, List.length_replicate] at h
  have hzero : width - (Nat.toDigits 16 n).length = 0 := by omega
  rw [lower, padded, hzero, List.replicate_zero, List.nil_append]
  apply hhead
  rintro rfl
  have hone : (Nat.toDigits 16 0).length = 1 := rfl
  omega

/-- The four digits of a word, highest first. -/
def fourFigures (n : Nat) : Text :=
  [figure (n / 4096), figure (n / 256 % 16), figure (n / 16 % 16), figure (n % 16)]

/-- **A word is written as its four digits**, zeros in front included. -/
theorem lower_four {n : Nat} (h : n < 65536) : lower 4 n = fourFigures n := by
  have hstep := toDigits_sixteen
  have hzero : figure 0 = '0' := rfl
  rw [lower, padded, fourFigures]
  -- by the number of digits that the number has without zeros in front
  by_cases h1 : n < 16
  · rw [hstep, if_pos h1, digitChar_eq_figure n h1]
    simp [show n / 4096 = 0 by omega, show n / 256 = 0 by omega,
      show n / 16 = 0 by omega, show n % 16 = n by omega, hzero]
  rw [hstep, if_neg h1, digitChar_eq_figure (n % 16) (by omega)]
  by_cases h2 : n / 16 < 16
  · rw [hstep, if_pos h2, digitChar_eq_figure _ h2]
    simp [show n / 4096 = 0 by omega, show n / 256 = 0 by omega,
      show n / 16 % 16 = n / 16 by omega, hzero]
  rw [hstep, if_neg h2, digitChar_eq_figure (n / 16 % 16) (by omega),
    Nat.div_div_eq_div_mul]
  by_cases h3 : n / 256 < 16
  · rw [hstep, if_pos h3, digitChar_eq_figure _ h3]
    simp [show n / 4096 = 0 by omega, show n / 256 % 16 = n / 256 by omega, hzero]
  rw [hstep, if_neg h3, digitChar_eq_figure (n / 256 % 16) (by omega),
    Nat.div_div_eq_div_mul, hstep, if_pos (by omega),
    digitChar_eq_figure _ (by omega)]
  simp

/-- Reading the four digits of a word gives the word. -/
theorem number_fourFigures {n : Nat} (h : n < 65536) :
    number (fourFigures n) = n := by
  rw [← lower_four h, number_lower]

theorem isDigit_of_mem_fourFigures {n : Nat} (h : n < 65536) :
    ∀ c ∈ fourFigures n, isDigit c = true := by
  rw [← lower_four h]
  exact fun c hc => isDigit_of_mem_lower hc

end IttyBitty.Hex
