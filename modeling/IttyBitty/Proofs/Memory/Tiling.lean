import IttyBitty.Memory.Dump
import IttyBitty.Proofs.Text.Hexadecimal
import IttyBitty.Proofs.Text.Splitting
import Mathlib.Algebra.Order.Floor.Div
import Mathlib.Data.List.FinRange

/-!
# Dumps as tilings

The rows of a dump cover the words that are shown, eight a row: read off the
rows in order, they are the words of the memory from address 0 on, none of them
twice and none left out, and each row starts with the address of its first
word. A dump of fewer words is a longer one that has been cut off
(`dump_tiles`).
-/

namespace IttyBitty.Memory

/-! ## Reading rows -/

/-- The numerals of a row: the words behind its first colon. -/
def numerals (row : String) : List Text :=
  Text.words ((row.toList.dropWhile (· != ':')).drop 1)

/-- A row as far as its first words go: four characters come before them, and each has five
with the space in front of it. -/
def cutRow (count : Nat) (row : String) : String :=
  String.ofList (row.toList.take (4 + 5 * count))

/-- Rows as far as their first words go; a row that would keep none is left out. -/
def cutAfter : Nat → List String → List String
  | _, [] => []
  | count, row :: rows =>
    if count = 0 then []
    else cutRow count row :: cutAfter (count - (numerals row).length) rows

/-! ## One row -/

variable {base : Nat} {ws : List Word}

theorem toList_dumpRow (base : Nat) (ws : List Word) :
    (dumpRow base ws).toList =
      Hex.lower 3 base ++ ':' :: (ws.map fun w => Hex.lower 4 w.toNat).flatMap (' ' :: ·) := by
  rw [dumpRow, String.toList_ofList, List.flatMap_map]

theorem isNumeral_address (h : base < 4096) : Hex.IsNumeral 3 base (Hex.lower 3 base) :=
  Hex.isNumeral_lower (by decide) h

theorem isNumeral_word (w : Word) : Hex.IsNumeral 4 w.toNat (Hex.lower 4 w.toNat) :=
  Hex.isNumeral_lower (by decide) w.isLt

/-- A row is read back as the words that it was made of. -/
theorem numerals_dumpRow (base : Nat) (ws : List Word) :
    numerals (dumpRow base ws) = ws.map fun w => Hex.lower 4 w.toNat := by
  have hcolon : ∀ c ∈ Hex.lower 3 base, (c != ':') = true :=
    Hex.forall_mem_lower (· != ':') (by decide) 3 base
  have hvisible (w : Word) : ∀ c ∈ Hex.lower 4 w.toNat, isBlank c = false :=
    Hex.forall_mem_lower (isBlank · = false) (by decide) 4 w.toNat
  rw [numerals, toList_dumpRow, List.dropWhile_append_of_pos hcolon]
  refine Text.words_spaced (List.forall_mem_map.mpr fun w _ => ⟨?_, hvisible w⟩)
  exact List.ne_nil_of_length_eq_add_one (isNumeral_word w).length

/-- Five characters of a row are one of its words. -/
theorem take_flatMap_words (count : Nat) (ws : List Word) :
    ((ws.map fun w => Hex.lower 4 w.toNat).flatMap (' ' :: ·)).take (5 * count) =
      ((ws.take count).map fun w => Hex.lower 4 w.toNat).flatMap (' ' :: ·) := by
  induction ws generalizing count with
  | nil => simp
  | cons w ws ih =>
      cases count with
      | zero => simp
      | succ count =>
          have hlength : (' ' :: Hex.lower 4 w.toNat).length = 5 := by
            rw [List.length_cons, (isNumeral_word w).length]
          rw [List.map_cons, List.flatMap_cons, List.take_succ_cons, List.map_cons,
            List.flatMap_cons, Nat.mul_add, Nat.add_comm, List.take_append, hlength,
            List.take_of_length_le (by omega), Nat.mul_one, Nat.add_sub_cancel_left, ih]

theorem cutRow_dumpRow (count : Nat) (h : base < 4096) :
    cutRow count (dumpRow base ws) = dumpRow base (ws.take count) := by
  have hlength := (isNumeral_address h).length
  have hfront : 4 + 5 * count - (Hex.lower 3 base).length = 5 * count + 1 := by omega
  rw [cutRow, toList_dumpRow, List.take_append, List.take_of_length_le (by omega), hfront,
    List.take_succ_cons, take_flatMap_words, ← toList_dumpRow, String.ofList_toList]

/-! ## All rows -/

/-- The rows of some words that start at an address: one for the first eight, and then those of
the words behind them. -/
def rowsFrom (base : Nat) (ws : List Word) : List String :=
  if ws = [] then [] else dumpRow base (ws.take 8) :: rowsFrom (base + 8) (ws.drop 8)
termination_by ws.length
decreasing_by
  have hpos := List.length_pos_iff.mpr ‹ws ≠ []›
  rw [List.length_drop]
  omega

theorem rowsFrom_nil (base : Nat) : rowsFrom base [] = [] := by
  rw [rowsFrom, if_pos rfl]

theorem rowsFrom_of_ne_nil (h : ws ≠ []) :
    rowsFrom base ws = dumpRow base (ws.take 8) :: rowsFrom (base + 8) (ws.drop 8) := by
  rw [rowsFrom, if_neg h]

/-- Row by row, a dump goes through the words eight at a time. -/
theorem rowsFrom_eq_map (base : Nat) (ws : List Word) :
    rowsFrom base ws = (List.range ((ws.length + 7) / 8)).map fun k =>
      dumpRow (base + 8 * k) ((ws.drop (8 * k)).take 8) := by
  fun_induction rowsFrom base ws with
  | case1 base => rfl
  | case2 base ws hne ih =>
      have hpos := List.length_pos_iff.mpr hne
      have hcount : (ws.length + 7) / 8 = ((ws.drop 8).length + 7) / 8 + 1 := by
        rw [List.length_drop]
        omega
      rw [ih, hcount, List.range_succ_eq_map, List.map_cons, List.map_map]
      refine congrArg₂ List.cons rfl (List.map_congr_left fun k _ => ?_)
      rw [Function.comp_apply, List.drop_drop, Nat.succ_eq_add_one, Nat.mul_add, Nat.mul_one,
        Nat.add_assoc, Nat.add_comm 8 (8 * k)]

theorem dumpRows_eq_rowsFrom (ws : List Word) : dumpRows ws = rowsFrom 0 ws := by
  simp only [rowsFrom_eq_map, dumpRows, Nat.zero_add]

/-- **No word is lost or shown twice.** -/
theorem flatMap_numerals (base : Nat) (ws : List Word) :
    (rowsFrom base ws).flatMap numerals = ws.map fun w => Hex.lower 4 w.toNat := by
  fun_induction rowsFrom base ws with
  | case1 base => rfl
  | case2 base ws hne ih =>
      rw [List.flatMap_cons, ih, numerals_dumpRow, ← List.map_append, List.take_append_drop]

/-- **Rows are cut where their words are.** -/
theorem cutAfter_rowsFrom (count : Nat) (h : base + ws.length ≤ 4096) :
    cutAfter count (rowsFrom base ws) = rowsFrom base (ws.take count) := by
  fun_induction rowsFrom base ws generalizing count with
  | case1 base => rw [List.take_nil, rowsFrom_nil, cutAfter]
  | case2 base ws hne ih =>
      have hpos := List.length_pos_iff.mpr hne
      rw [cutAfter]
      by_cases hzero : count = 0
      · rw [if_pos hzero, hzero, List.take_zero, rowsFrom_nil]
      · have htake : ws.take count ≠ [] := by
          rw [Ne, List.take_eq_nil_iff, not_or]
          exact ⟨hzero, hne⟩
        have hfirst : cutRow count (dumpRow base (ws.take 8)) =
            dumpRow base ((ws.take count).take 8) := by
          rw [cutRow_dumpRow count (by omega), List.take_take, List.take_take, Nat.min_comm]
        have hrest : cutAfter (count - (ws.take 8).length) (rowsFrom (base + 8) (ws.drop 8)) =
            rowsFrom (base + 8) ((ws.take count).drop 8) := by
          rw [List.drop_take, List.length_take]
          -- a first row that is not full is the only one
          rcases Nat.lt_or_ge 8 ws.length with hlong | hshort
          · have hfits : base + 8 + (ws.drop 8).length ≤ 4096 := by
              rw [List.length_drop]
              omega
            rw [ih _ hfits, Nat.min_eq_left (by omega)]
          · rw [List.drop_of_length_le hshort, List.take_nil, rowsFrom_nil, cutAfter]
        rw [if_neg hzero, rowsFrom_of_ne_nil htake, numerals_dumpRow, List.length_map, hfirst,
          hrest]

/-- Rows that go one word into the second, and what is left of them after two words. -/
example :
    let rows := dumpRows (List.replicate 9 0x1a)
    rows = ["000: 001a 001a 001a 001a 001a 001a 001a 001a", "008: 001a"] ∧
      cutAfter 2 rows = ["000: 001a 001a"] := by decide

/-! ## Dumps -/

/-- The words of a memory are what is in its places, in order. -/
theorem words_eq_map_fetch (m : Memory) : m.words = (List.finRange 4096).map m.fetch := by
  rw [← List.ofFn_eq_map]
  refine List.ext_getElem? fun a => ?_
  rw [words, Vector.getElem?_toList, List.getElem?_ofFn]
  by_cases ha : a < 4096
  · rw [Vector.getElem?_eq_getElem ha, dif_pos ha]
    rfl
  · rw [Vector.getElem?_eq_none (by omega), dif_neg ha]

/-- The number of words that an amount stands for: itself, brought to the nearest that a memory
has. -/
def clamped (amount : Int) : Nat := (max 0 (min amount 4096)).toNat

theorem dump_eq_rowsFrom (m : Memory) (amount : Int) :
    m.dump amount = rowsFrom 0 (m.words.take (clamped amount)) := by
  have hamount : m.words.take amount.toNat = m.words.take (clamped amount) := by
    rw [List.take_eq_take_iff, m.length_words, clamped]
    omega
  rw [dump, dumpRows_eq_rowsFrom, hamount]

/-- Rows show the first words of a memory, eight a row. -/
structure Tiles (m : Memory) (count : Nat) (rows : List String) : Prop where
  size : rows.length = count ⌈/⌉ 8
  /-- A row is the address of its first word, a colon, and its words with a space in front of
  each. -/
  address : ∀ k row, rows[k]? = some row → ∃ address, Hex.IsNumeral 3 (8 * k) address ∧
    row.toList = address ++ ':' :: (numerals row).flatMap (' ' :: ·)
  /-- Every row but the last has eight words, -/
  full : ∀ k row, rows[k]? = some row → k + 1 < rows.length → (numerals row).length = 8
  /-- and the last has all that are left, of which there are some. -/
  last : ∀ row, rows.getLast? = some row →
    (numerals row).length = count - 8 * (rows.length - 1) ∧ 0 < (numerals row).length
  /-- The words of all rows in order are those in the first places of the memory. -/
  holds : List.Forall₂ (fun numeral a => Hex.IsNumeral 4 (m.fetch a).toNat numeral)
    (rows.flatMap numerals) ((List.finRange 4096).take count)

/-- The row in a place holds the words from eight times the place on. -/
theorem getElem?_rowsFrom {k : Nat} {row : String} (h : (rowsFrom 0 ws)[k]? = some row) :
    8 * k < ws.length ∧ row = dumpRow (8 * k) ((ws.drop (8 * k)).take 8) := by
  rw [rowsFrom_eq_map, List.getElem?_map, Option.map_eq_some_iff] at h
  obtain ⟨k', hk, rfl⟩ := h
  obtain ⟨hlt, rfl⟩ := List.getElem?_eq_some_iff.mp hk
  rw [List.length_range] at hlt
  rw [List.getElem_range, Nat.zero_add]
  exact ⟨by omega, rfl⟩

theorem length_numerals_rowsFrom {k : Nat} {row : String} (h : (rowsFrom 0 ws)[k]? = some row) :
    (numerals row).length = min 8 (ws.length - 8 * k) := by
  obtain ⟨-, rfl⟩ := getElem?_rowsFrom h
  rw [numerals_dumpRow, List.length_map, List.length_take, List.length_drop]

theorem length_rowsFrom (base : Nat) (ws : List Word) :
    (rowsFrom base ws).length = (ws.length + 7) / 8 := by
  rw [rowsFrom_eq_map, List.length_map, List.length_range]

theorem tiles_rowsFrom (m : Memory) {count : Nat} (h : count ≤ 4096) :
    m.Tiles count (rowsFrom 0 (m.words.take count)) := by
  have hlength : (m.words.take count).length = count := by
    rw [List.length_take, m.length_words, Nat.min_eq_left h]
  have hrows := length_rowsFrom 0 (m.words.take count)
  rw [hlength] at hrows
  refine ⟨?size, ?address, ?full, ?last, ?holds⟩
  case size => exact hrows.trans (Nat.ceilDiv_eq_add_pred_div count 8).symm
  case address =>
    intro k row hrow
    obtain ⟨hk, rfl⟩ := getElem?_rowsFrom hrow
    refine ⟨_, isNumeral_address (by omega), ?_⟩
    rw [toList_dumpRow, numerals_dumpRow]
  case full =>
    intro k row hrow hk
    rw [length_numerals_rowsFrom hrow]
    omega
  case last =>
    intro row hrow
    rw [List.getLast?_eq_getElem?] at hrow
    have hk := (getElem?_rowsFrom hrow).1
    rw [length_numerals_rowsFrom hrow]
    omega
  case holds =>
    rw [flatMap_numerals, words_eq_map_fetch, ← List.map_take, List.map_map,
      List.forall₂_map_left_iff, List.forall₂_same]
    exact fun a _ => isNumeral_word (m.fetch a)

/-- **A dump tiles the memory**: its rows are the words that the amount stands for, eight a row.
The dump of a smaller amount is the same rows cut off behind as many words. -/
theorem dump_tiles (m : Memory) (amount : Int) :
    m.Tiles (clamped amount) (m.dump amount) ∧
      ∀ less : Int, clamped less ≤ clamped amount →
        m.dump less = cutAfter (clamped less) (m.dump amount) := by
  have hfits : clamped amount ≤ 4096 := by
    rw [clamped]
    omega
  rw [dump_eq_rowsFrom]
  refine ⟨m.tiles_rowsFrom hfits, fun less hless => ?_⟩
  have hwithin : 0 + (m.words.take (clamped amount)).length ≤ 4096 := by
    rw [List.length_take]
    omega
  rw [dump_eq_rowsFrom, cutAfter_rowsFrom _ hwithin, List.take_take, Nat.min_eq_left hless]

end IttyBitty.Memory
