import IttyBitty.Proofs.Memory.Formats

/-!
# Loading hex listings

A listing is loaded exactly if each of its rows starts with a word and there are no more
rows than places; otherwise the first row that offends is the error. What is written of
any memory is loaded as its program with zeros behind it, so that loading and writing a
listing once brings it to a form that stays (`HexListing.load_exact`).
-/

namespace IttyBitty

/-! ## Memories place by place -/

namespace Memory

/-- Behind the loaded words there are zeros. -/
theorem fetch_ofWords {ws : List Word} (h : ws.length ≤ 4096) (a : Address) :
    (ofWords ws h).fetch a = ws[a.val]?.getD 0 := by
  have hcell : (ofWords ws h).fetch a =
      (ws ++ List.replicate (4096 - ws.length) 0)[a.val]?.getD 0 := by
    rw [fetch, ofWords, Fin.getElem_fin, Vector.getElem_mk, List.getElem_toArray,
      List.getElem?_eq_getElem, Option.getD_some]
  rw [hcell]
  by_cases ha : a.val < ws.length
  · rw [List.getElem?_append_left ha]
  · have hzero : (List.replicate (4096 - ws.length) (0 : Word))[a.val - ws.length]? = some 0 :=
      List.getElem?_replicate_of_lt (by omega)
    rw [List.getElem?_append_right (by omega), hzero, List.getElem?_eq_none (by omega)]
    rfl

/-- The program is what stands in the first places. -/
theorem getElem?_program (m : Memory) (a : Address) :
    m.program[a.val]? = if a.val < m.length then some (m.fetch a) else none := by
  rw [program, List.getElem?_take]
  split
  · rw [words, Vector.getElem?_toList, Vector.getElem?_eq_getElem a.isLt]
    rfl
  · rfl

theorem length_program (m : Memory) : m.program.length = m.length := by
  rw [program, List.length_take, length_words, Nat.min_eq_left m.length_le]

end Memory

namespace HexListing

/-! ## Rows -/

/-- A line is a row if it says anything and is no comment. -/
theorem isRow_iff {line : Text} : isRow line = true ↔ line ≠ [] ∧ ¬ ['/', '/'] <+: line := by
  unfold isRow
  split
  · simp
  · simp
  · rename_i hempty hslashes
    refine ⟨fun _ => ⟨hempty, ?_⟩, fun _ => rfl⟩
    rintro ⟨rest, rfl⟩
    exact hslashes rest rfl

/-- A row starts with a word: its first four characters are digits. -/
structure StartsWithWord (row : Text) : Prop where
  length : (row.take 4).length = 4
  digits : ∀ c ∈ row.take 4, Hex.isDigit c = true

/-- The word that the first four characters of a row stand for. -/
def value (row : Text) : Word := BitVec.ofNat 16 (Hex.number (row.take 4))

theorem toNat_value (row : Text) : (value row).toNat = Hex.number (row.take 4) := by
  rw [value, BitVec.toNat_ofNat, Nat.mod_eq_of_lt]
  exact Hex.number_lt (List.length_take_le 4 row)

theorem carries_iff {row : Text} {w : Word} :
    Carries row w ↔ StartsWithWord row ∧ w = value row := by
  constructor
  · rintro ⟨hlength, hdigits, hvalue⟩
    exact ⟨⟨hlength, hdigits⟩, BitVec.eq_of_toNat_eq (hvalue.trans (toNat_value row).symm)⟩
  · rintro ⟨⟨hlength, hdigits⟩, rfl⟩
    exact ⟨hlength, hdigits, toNat_value row⟩

theorem forall₂_carries_iff {rows : List Text} {ws : List Word} :
    List.Forall₂ Carries rows ws ↔
      (∀ row ∈ rows, StartsWithWord row) ∧ ws = rows.map value := by
  induction rows generalizing ws with
  | nil =>
      constructor
      · rintro ⟨⟩
        exact ⟨List.forall_mem_nil _, rfl⟩
      · rintro ⟨-, rfl⟩
        exact .nil
  | cons row rows ih =>
      constructor
      · rintro (_ | ⟨hrow, hrows⟩)
        obtain ⟨hword, rfl⟩ := carries_iff.mp hrow
        obtain ⟨hwords, rfl⟩ := ih.mp hrows
        exact ⟨List.forall_mem_cons.mpr ⟨hword, hwords⟩, rfl⟩
      · rintro ⟨hwords, rfl⟩
        obtain ⟨hword, hwords⟩ := List.forall_mem_cons.mp hwords
        exact .cons (carries_iff.mpr ⟨hword, rfl⟩) (ih.mpr ⟨hwords, rfl⟩)

theorem word?_eq_none_iff {row : Text} : word? row = none ↔ ¬ StartsWithWord row := by
  cases hword : word? row with
  | none =>
      refine ⟨fun _ h => ?_, fun _ => rfl⟩
      rw [word?_eq_some_iff.mpr (carries_iff.mpr ⟨h, rfl⟩)] at hword
      cases hword
  | some w =>
      have hrow := (carries_iff.mp (word?_eq_some_iff.mp hword)).1
      exact ⟨nofun, fun h => absurd hrow h⟩

/-! ## The first row that offends -/

/-- Why reading ends at a row in some place: it does not start with a word, or it does and
all places are filled. -/
inductive Offends (place : Nat) (row : Text) : Error → Prop
  | notAWord (h : ¬ StartsWithWord row) : Offends place row (.notAWord row)
  | tooMany (h : StartsWithWord row) (hplace : place = 4096) :
      Offends place row (.memory .tooManyRows)

/-- **The first row that offends decides the error.** -/
theorem wordsFrom_eq_error_iff {count : Nat} {done : List Word} {rows : List Text} {e : Error}
    (hcount : count ≤ 4096) :
    wordsFrom count done rows = .error e ↔
      ∃ before row after, rows = before ++ row :: after ∧ (∀ r ∈ before, StartsWithWord r) ∧
        count + before.length ≤ 4096 ∧ Offends (count + before.length) row e := by
  induction rows generalizing count done with
  | nil =>
      refine ⟨nofun, ?_⟩
      rintro ⟨before, row, after, hrows, -⟩
      cases before <;> cases hrows
  | cons row rows ih =>
      rw [wordsFrom]
      cases hword : word? row with
      | none =>
          have hrow := word?_eq_none_iff.mp hword
          constructor
          · rintro ⟨⟩
            exact ⟨[], row, rows, rfl, List.forall_mem_nil _, hcount, .notAWord hrow⟩
          · rintro ⟨_ | ⟨first, before⟩, row', after, hrows, hbefore, -, hoffends⟩
            · cases hrows
              cases hoffends with
              | notAWord => rfl
              | tooMany h => exact absurd h hrow
            · cases hrows
              exact absurd (hbefore row (List.mem_cons_self ..)) hrow
      | some w =>
          have hrow := (carries_iff.mp (word?_eq_some_iff.mp hword)).1
          dsimp only
          by_cases hlt : count < 4096
          · rw [if_pos hlt, ih (by omega)]
            constructor
            · rintro ⟨before, row', after, rfl, hbefore, hfits, hoffends⟩
              rw [Nat.add_right_comm] at hfits hoffends
              exact ⟨row :: before, row', after, rfl,
                List.forall_mem_cons.mpr ⟨hrow, hbefore⟩, hfits, hoffends⟩
            · rintro ⟨_ | ⟨first, before⟩, row', after, hrows, hbefore, hfits, hoffends⟩
              · cases hrows
                cases hoffends with
                | notAWord h => exact absurd hrow h
                | tooMany _ hplace => exact absurd hplace (Nat.ne_of_lt hlt)
              · cases hrows
                rw [List.length_cons, ← Nat.add_assoc, Nat.add_right_comm] at hfits hoffends
                exact ⟨before, row', after, rfl, (List.forall_mem_cons.mp hbefore).2, hfits,
                  hoffends⟩
          · have hfull : count = 4096 := by omega
            rw [if_neg hlt]
            constructor
            · rintro ⟨⟩
              exact ⟨[], row, rows, rfl, List.forall_mem_nil _, hcount, .tooMany hrow hfull⟩
            · rintro ⟨_ | ⟨first, before⟩, row', after, hrows, -, hfits, hoffends⟩
              · cases hrows
                cases hoffends with
                | notAWord h => exact absurd hrow h
                | tooMany => rfl
              · rw [List.length_cons] at hfits
                omega

/-! ## Loading -/

/-- Words that can be read are never too many for the memory. -/
theorem load_of_words {t : Text} {ws : List Word} (h : words t = .ok ws) :
    load t = .ok (Memory.ofWords ws (words_eq_ok_iff.mp h).2) := by
  have hfits := (words_eq_ok_iff.mp h).2
  have hload : load t = (Memory.loadWords ws).mapError .memory := by
    rw [load, h]
    rfl
  rw [hload, Memory.loadWords, dif_pos hfits]
  rfl

theorem load_of_error {t : Text} {e : Error} (h : words t = .error e) : load t = .error e := by
  rw [load, h]
  rfl

theorem load_eq_error_iff {t : Text} {e : Error} : load t = .error e ↔ words t = .error e := by
  refine ⟨fun h => ?_, load_of_error⟩
  cases hwords : words t with
  | error e' =>
      cases (load_of_error hwords).symm.trans h
      rfl
  | ok ws =>
      rw [load_of_words hwords] at h
      cases h

/-- **A listing is loaded as the words of its rows**, if they all have one and fit. -/
theorem load_eq_ok_iff {t : Text} {m : Memory} :
    load t = .ok m ↔
      (∀ row ∈ rows t, StartsWithWord row) ∧
        ∃ h : ((rows t).map value).length ≤ 4096, m = Memory.ofWords ((rows t).map value) h := by
  have hwords {ws : List Word} : words t = .ok ws ↔
      (∀ row ∈ rows t, StartsWithWord row) ∧ ws = (rows t).map value ∧ ws.length ≤ 4096 := by
    rw [words_eq_ok_iff, forall₂_carries_iff, and_assoc]
  constructor
  · intro hm
    cases hread : words t with
    | error e =>
        rw [load_of_error hread] at hm
        cases hm
    | ok ws =>
        rw [load_of_words hread] at hm
        obtain ⟨hrows, rfl, hfits⟩ := hwords.mp hread
        exact ⟨hrows, hfits, (Except.ok.inj hm).symm⟩
  · rintro ⟨hrows, hfits, rfl⟩
    exact load_of_words (hwords.mpr ⟨hrows, rfl, hfits⟩)

/-- **What is written of a memory is loaded as its program**, with zeros behind it. -/
theorem load_ofMemory (m : Memory) :
    ∃ m', load (ofMemory m) = .ok m' ∧ m'.length = m.length ∧
      ∀ a : Address, m'.fetch a = if a.val < m.length then m.fetch a else 0 := by
  have hfits : m.program.length ≤ 4096 := by
    rw [m.length_program]
    exact m.length_le
  refine ⟨Memory.ofWords m.program hfits, load_ofWords hfits, m.length_program, fun a => ?_⟩
  rw [Memory.fetch_ofWords, m.getElem?_program]
  split <;> rfl

/-- A memory that has been loaded with words has nothing behind them that could be lost. -/
theorem load_ofMemory_ofWords {ws : List Word} (h : ws.length ≤ 4096) :
    load (ofMemory (Memory.ofWords ws h)) = .ok (Memory.ofWords ws h) := by
  rw [ofMemory, Memory.program_ofWords, load_ofWords h]

/-- How a listing is loaded, in terms of its rows. -/
structure LoadsExactly (t : Text) : Prop where
  /-- The rows are the trimmed lines that are neither blank nor a comment. -/
  trimmed : rows t =
    ((Text.lines t).map Text.trim).filter fun row => row ≠ [] ∧ ¬ ['/', '/'] <+: row
  accepted : (∃ m, load t = .ok m) ↔
    (∀ row ∈ rows t, StartsWithWord row) ∧ (rows t).length ≤ 4096
  /-- The rows are the words of the memory from its first place on, and all others are zero. -/
  loaded : ∀ m, load t = .ok m → m.length = (rows t).length ∧ ∀ a : Address,
    (m.fetch a).toNat = ((rows t)[a.val]?.map fun row => Hex.number (row.take 4)).getD 0
  /-- The first row that offends is the error. -/
  refused : ∀ e, load t = .error e ↔
    ∃ before row after, rows t = before ++ row :: after ∧ (∀ r ∈ before, StartsWithWord r) ∧
      before.length ≤ 4096 ∧ Offends before.length row e
  /-- What is written of the memory is loaded as the same memory, and so is written again as
  it is. -/
  stable : ∀ m, load t = .ok m → load (ofMemory m) = .ok m

/-- **Hex listings are loaded exactly**, and what is written of any memory is loaded as its
program: the same words up to its length, and zeros behind them. -/
theorem load_exact (t : Text) :
    LoadsExactly t ∧
      ∀ m : Memory, ∃ m', load (ofMemory m) = .ok m' ∧ m'.length = m.length ∧
        ∀ a : Address, m'.fetch a = if a.val < m.length then m.fetch a else 0 := by
  refine ⟨⟨?trimmed, ?accepted, ?loaded, ?refused, ?stable⟩, load_ofMemory⟩
  case trimmed =>
    refine List.filter_congr fun row _ => ?_
    rw [Bool.eq_iff_iff, isRow_iff, decide_eq_true_eq]
  case accepted =>
    constructor
    · rintro ⟨m, hm⟩
      obtain ⟨hrows, hfits, -⟩ := load_eq_ok_iff.mp hm
      exact ⟨hrows, by rwa [List.length_map] at hfits⟩
    · rintro ⟨hrows, hfits⟩
      exact ⟨_, load_eq_ok_iff.mpr ⟨hrows, by rwa [List.length_map], rfl⟩⟩
  case loaded =>
    intro m hm
    obtain ⟨-, hfits, rfl⟩ := load_eq_ok_iff.mp hm
    refine ⟨List.length_map _, fun a => ?_⟩
    rw [Memory.fetch_ofWords, List.getElem?_map]
    cases (rows t)[a.val]? with
    | none => rfl
    | some row => exact toNat_value row
  case refused =>
    intro e
    rw [load_eq_error_iff, words, wordsFrom_eq_error_iff (Nat.zero_le _)]
    simp only [Nat.zero_add]
  case stable =>
    intro m hm
    obtain ⟨-, hfits, rfl⟩ := load_eq_ok_iff.mp hm
    exact load_ofMemory_ofWords hfits

end HexListing

end IttyBitty
