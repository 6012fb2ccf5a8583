import IttyBitty.Memory.Dump
import IttyBitty.Proofs.Memory.Listings
import Mathlib.Data.List.Basic
import Mathlib.Data.List.Induction

/-!
# Memory as a store

A memory is determined by what has been done to it: a place holds what was last written
to it since the last load, or else what that load has put there. The place is looked up in
the history alone, newest operation first, and no list of words is kept. Operations that
fail are part of a history and make no difference (`Memory.last_write_wins`).
-/

namespace IttyBitty.Memory

/-! ## Operations -/

/-- What may be done to a memory. -/
inductive Operation
  | load (values : List Int)
  | write (a : Nat) (value : Int)
  | read (a : Nat)
  deriving DecidableEq, Repr

/-- Carries out an operation, which leaves the memory as it was if it fails. Only a read
answers with a word. -/
def perform (m : Memory) : Operation → Memory × Except Error (Option Word)
  | .load values =>
    match load values with
    | .ok loaded => (loaded, .ok none)
    | .error e => (m, .error e)
  | .write a value =>
    match m.write a value with
    | .ok written => (written, .ok none)
    | .error e => (m, .error e)
  | .read a => (m, (m.read a).map some)

/-- The memory behind some operations, whatever each of them ended in. -/
def after (m : Memory) (operations : List Operation) : Memory :=
  operations.foldl (fun m operation => (m.perform operation).1) m

variable {m : Memory} {history : List Operation} {values : List Int} {value : Int} {a : Nat}

theorem perform_load (h : values.length ≤ 4096) :
    m.perform (.load values)
      = (ofWords (values.map Word.ofInt) ((List.length_map _).trans_le h), .ok none) := by
  rw [perform, load, loadWords, dif_pos]

theorem perform_load_of_lt (h : 4096 < values.length) :
    m.perform (.load values) = (m, .error (.tooManyWords values.length)) := by
  have hlong : ¬ (values.map Word.ofInt).length ≤ 4096 := by
    rw [List.length_map]
    omega
  rw [perform, load, loadWords, dif_neg hlong, List.length_map]

theorem perform_write (h : a < 4096) :
    m.perform (.write a value) = (m.store ⟨a, h⟩ (Word.ofInt value), .ok none) := by
  rw [perform, write, dif_pos h]

theorem perform_write_of_le (h : 4096 ≤ a) :
    m.perform (.write a value) = (m, .error .noSuchAddress) := by
  rw [perform, write, dif_neg (by omega)]

theorem perform_read (h : a < 4096) : m.perform (.read a) = (m, .ok (some (m.fetch ⟨a, h⟩))) := by
  rw [perform, read, dif_pos h]
  rfl

theorem perform_read_of_le (h : 4096 ≤ a) :
    m.perform (.read a) = (m, .error .noSuchAddress) := by
  rw [perform, read, dif_neg (by omega)]
  rfl

/-! ## What a history says -/

/-- The values of a load that fits. -/
def Operation.loaded? : Operation → Option (List Int)
  | .load values => if values.length ≤ 4096 then some values else none
  | _ => none

/-- The value of a write to a place. -/
def Operation.written? (a : Nat) : Operation → Option Int
  | .write b value => if b = a then some value else none
  | _ => none

/-- The values of the last load of a history that fits. -/
def lastLoad (history : List Operation) : List Int :=
  (history.reverse.findSome? Operation.loaded?).getD []

/-- The operations since the last load that fits, newest first. -/
def sinceLoad (history : List Operation) : List Operation :=
  history.reverse.takeWhile (·.loaded?.isNone)

/-- The value that was last written to a place since the last load that fits. -/
def lastWrite? (history : List Operation) (a : Nat) : Option Int :=
  (sinceLoad history).findSome? (Operation.written? a)

/-- What a place holds behind a history: the value last written to it since the last load,
or the one which that load has for it, or zero. -/
def remembered (history : List Operation) (a : Nat) : Int :=
  (lastWrite? history a).getD ((lastLoad history).getD a 0) % 65536

theorem lastLoad_append (history : List Operation) (operation : Operation) :
    lastLoad (history ++ [operation]) = operation.loaded?.getD (lastLoad history) := by
  cases h : operation.loaded? <;> simp [lastLoad, h]

theorem lastWrite?_append (history : List Operation) (operation : Operation) :
    lastWrite? (history ++ [operation]) a =
      if operation.loaded?.isNone then (operation.written? a).or (lastWrite? history a)
      else none := by
  cases h : operation.loaded? <;> cases hw : operation.written? a <;>
    simp [lastWrite?, sinceLoad, h, hw]

theorem remembered_load (history : List Operation) (h : values.length ≤ 4096) :
    remembered (history ++ [.load values]) a = values.getD a 0 % 65536 := by
  have hloaded : (Operation.load values).loaded? = some values := if_pos h
  rw [remembered, lastLoad_append, lastWrite?_append, hloaded]
  rfl

theorem remembered_write (history : List Operation) (a b : Nat) (value : Int) :
    remembered (history ++ [.write b value]) a =
      if b = a then value % 65536 else remembered history a := by
  have hnone : (Operation.write b value).loaded? = none := rfl
  have hwritten : (Operation.write b value).written? a = if b = a then some value else none := rfl
  rw [remembered, lastLoad_append, lastWrite?_append, hnone, hwritten, remembered]
  by_cases hb : b = a <;> simp [hb]

/-- A load that does not fit, or a read, says nothing. -/
theorem remembered_of_silent {operation : Operation} (history : List Operation) (a : Nat)
    (hload : operation.loaded? = none) (hwrite : operation.written? a = none) :
    remembered (history ++ [operation]) a = remembered history a := by
  rw [remembered, lastLoad_append, lastWrite?_append, hload, hwrite, remembered]
  rfl

/-! ## Memories with a history -/

/-- The memory holds what its history says, place by place. -/
structure Recalls (m : Memory) (history : List Operation) : Prop where
  length : m.length = (lastLoad history).length
  cell : ∀ a : Address, (m.fetch a).value = remembered history a

theorem recalls_empty : empty.Recalls [] where
  length := rfl
  cell a := by
    rw [empty, fetch_ofWords]
    rfl

/-- What one operation makes of the memory is what it adds to the history. -/
theorem Recalls.perform (h : m.Recalls history) (operation : Operation) :
    (m.perform operation).1.Recalls (history ++ [operation]) := by
  -- a load that does not fit and a write to no place leave both sides as they are
  cases operation with
  | load values =>
      by_cases hfits : values.length ≤ 4096
      · have hloaded : (Operation.load values).loaded? = some values := if_pos hfits
        rw [perform_load hfits]
        refine ⟨?_, fun a => ?_⟩
        · rw [lastLoad_append, hloaded]
          exact List.length_map _
        · rw [fetch_ofWords, remembered_load history hfits, List.getElem?_map,
            List.getD_eq_getElem?_getD]
          cases values[a.val]? with
          | none => rfl
          | some value => exact Word.value_ofInt value
      · have hnone : (Operation.load values).loaded? = none := if_neg hfits
        rw [perform_load_of_lt (by omega)]
        refine ⟨?_, fun a => ?_⟩
        · rw [lastLoad_append, hnone]
          exact h.length
        · rw [remembered_of_silent history a hnone rfl]
          exact h.cell a
  | write b value =>
      have hlength : m.length = (lastLoad (history ++ [.write b value])).length := by
        rw [lastLoad_append]
        exact h.length
      by_cases hb : b < 4096
      · rw [perform_write hb]
        refine ⟨hlength, fun a => ?_⟩
        rw [fetch_store, remembered_write, ← h.cell a]
        by_cases hba : b = a.val <;> simp [hba, Fin.ext_iff, Word.value_ofInt]
      · rw [perform_write_of_le (by omega)]
        refine ⟨hlength, fun a => ?_⟩
        have ha := a.isLt
        rw [remembered_write, if_neg (by omega)]
        exact h.cell a
  | read b =>
      have hsame : (m.perform (.read b)).1 = m := rfl
      rw [hsame]
      refine ⟨?_, fun a => ?_⟩
      · rw [lastLoad_append]
        exact h.length
      · rw [remembered_of_silent history a rfl rfl]
        exact h.cell a

theorem recalls_after (history : List Operation) : (empty.after history).Recalls history := by
  induction history using List.reverseRecOn with
  | nil => exact recalls_empty
  | append_singleton history operation ih =>
      have hafter : empty.after (history ++ [operation])
          = ((empty.after history).perform operation).1 := by
        simp [after]
      rw [hafter]
      exact ih.perform operation

/-! ## What a memory shows -/

theorem take_drop_range (n start count : Nat) :
    ((List.range n).drop start).take count
      = (List.range (min count (n - start))).map (start + ·) := by
  refine List.ext_getElem ?_ fun i _ _ => ?_
  · simp
  · simp

/-- The row of a dump for `count` places from `base` on. -/
def rowOf (contents : Nat → Int) (base count : Nat) : String :=
  String.ofList (Hex.lower 3 base ++
    ':' :: (List.range count).flatMap fun i => ' ' :: Hex.fourFigures (contents (base + i)).toNat)

/-- All that a memory shows is what its places hold, and nothing is shown in two ways. -/
structure Shows (m : Memory) (contents : Nat → Int) : Prop where
  size : m.words.length = 4096
  read : ∀ a < 4096, ∃ w, m.read a = .ok w ∧ w.value = contents a
  words : m.words.map Word.value = (List.range 4096).map contents
  listing : HexListing.ofMemory m =
    (List.range m.length).flatMap fun a => Hex.fourFigures (contents a).toNat ++ ['\n']
  image : Binary.ofMemory m = (List.range m.length).flatMap fun a =>
    [UInt8.ofNat ((contents a).toNat % 256), UInt8.ofNat ((contents a).toNat / 256)]
  /-- The last row of a dump may be shorter than the others. -/
  dump : ∀ amount : Int, m.dump amount =
    (List.range ((min amount.toNat 4096 + 7) / 8)).map fun k =>
      rowOf contents (8 * k) (min 8 (min amount.toNat 4096 - 8 * k))

section

variable {contents : Nat → Int} (hcells : ∀ a : Address, (m.fetch a).value = contents a)

include hcells

theorem value_of_cells (h : a < 4096) : (Word.ofInt (contents a)).value = contents a := by
  rw [← hcells ⟨a, h⟩, Word.ofInt_value]

theorem toNat_of_cells (h : a < 4096) : (Word.ofInt (contents a)).toNat = (contents a).toNat := by
  rw [← value_of_cells hcells h, Word.ofInt_value]
  rfl

theorem words_of_cells : m.words = (List.range 4096).map fun a => Word.ofInt (contents a) := by
  refine List.ext_getElem? fun a => ?_
  rw [words, Vector.getElem?_toList, List.getElem?_map]
  by_cases ha : a < 4096
  · have hfetch : m.cells[a] = Word.ofInt (contents a) := by
      rw [← hcells ⟨a, ha⟩, Word.ofInt_value]
      rfl
    rw [Vector.getElem?_eq_getElem ha, List.getElem?_range ha, hfetch]
    rfl
  · rw [Vector.getElem?_eq_none (by omega), List.getElem?_eq_none]
    · rfl
    · rw [List.length_range]
      omega

theorem program_of_cells :
    m.program = (List.range m.length).map fun a => Word.ofInt (contents a) := by
  rw [program, words_of_cells hcells, ← List.map_take, List.take_range,
    Nat.min_eq_left m.length_le]

/-- What is written of every word of the program is written of what its places hold. -/
theorem flatMap_program {α : Type} {written : Word → List α} (shown : Nat → List α)
    (h : ∀ w, written w = shown w.toNat) :
    m.program.flatMap written
      = (List.range m.length).flatMap fun a => shown (contents a).toNat := by
  have hlength := m.length_le
  rw [program_of_cells hcells, List.flatMap_map]
  refine List.flatMap_congr fun a ha => ?_
  rw [List.mem_range] at ha
  rw [h, toNat_of_cells hcells (by omega)]

theorem dump_of_cells (amount : Int) :
    m.dump amount = (List.range ((min amount.toNat 4096 + 7) / 8)).map fun k =>
      rowOf contents (8 * k) (min 8 (min amount.toNat 4096 - 8 * k)) := by
  have hshown : m.words.take amount.toNat
      = (List.range (min amount.toNat 4096)).map fun a => Word.ofInt (contents a) := by
    rw [words_of_cells hcells, ← List.map_take, List.take_range]
  rw [dump, dumpRows, hshown, List.length_map, List.length_range]
  refine List.map_congr_left fun k _ => ?_
  rw [dumpRow, rowOf, ← List.map_drop, ← List.map_take, take_drop_range, List.map_map,
    List.flatMap_map]
  congr 3
  refine List.flatMap_congr fun i hi => ?_
  rw [List.mem_range] at hi
  have hplace : 8 * k + i < 4096 := by omega
  have hword := (Word.ofInt (contents (8 * k + i))).isLt
  rw [Function.comp_apply, Hex.lower_four hword, toNat_of_cells hcells hplace]

/-- **What the places hold decides what is shown.** -/
theorem shows_of_cells : m.Shows contents where
  size := m.length_words
  read a ha := ⟨m.fetch ⟨a, ha⟩, dif_pos ha, hcells ⟨a, ha⟩⟩
  words := by
    rw [words_of_cells hcells, List.map_map]
    exact List.map_congr_left fun a ha => value_of_cells hcells (List.mem_range.mp ha)
  listing := flatMap_program hcells (Hex.fourFigures · ++ ['\n']) HexListing.line_eq
  image :=
    flatMap_program hcells (fun n => [UInt8.ofNat (n % 256), UInt8.ofNat (n / 256)]) fun _ => rfl
  dump := dump_of_cells hcells

end

/-! ## Histories -/

/-- How a memory answers an operation: with nothing for a load or a write that is carried
out, with the word of a place that is read, and with an error that leaves it as it is. -/
inductive Answers (m : Memory) (contents : Nat → Int) :
    Operation → Memory × Except Error (Option Word) → Prop
  | loaded {values : List Int} {m' : Memory} (h : values.length ≤ 4096) :
      Answers m contents (.load values) (m', .ok none)
  | tooMany {values : List Int} (h : 4096 < values.length) :
      Answers m contents (.load values) (m, .error (.tooManyWords values.length))
  | written {a : Nat} {value : Int} {m' : Memory} (h : a < 4096) (hlength : m'.length = m.length) :
      Answers m contents (.write a value) (m', .ok none)
  | unwritten {a : Nat} {value : Int} (h : 4096 ≤ a) :
      Answers m contents (.write a value) (m, .error .noSuchAddress)
  | found {a : Nat} {w : Word} (h : a < 4096) (hw : w.value = contents a) :
      Answers m contents (.read a) (m, .ok (some w))
  | missed {a : Nat} (h : 4096 ≤ a) : Answers m contents (.read a) (m, .error .noSuchAddress)

theorem Recalls.answers (h : m.Recalls history) (operation : Operation) :
    m.Answers (remembered history) operation (m.perform operation) := by
  cases operation with
  | load values =>
      rcases Nat.lt_or_ge 4096 values.length with hlong | hfits
      · rw [perform_load_of_lt hlong]
        exact .tooMany hlong
      · rw [perform_load hfits]
        exact .loaded hfits
  | write a value =>
      rcases Nat.lt_or_ge a 4096 with hinside | houtside
      · rw [perform_write hinside]
        exact .written hinside rfl
      · rw [perform_write_of_le houtside]
        exact .unwritten houtside
  | read a =>
      rcases Nat.lt_or_ge a 4096 with hinside | houtside
      · rw [perform_read hinside]
        exact .found hinside (h.cell _)
      · rw [perform_read_of_le houtside]
        exact .missed houtside

/-- **The last write wins.** Whatever has been done to a memory, it has the length of the
last load that succeeded, it shows in every way what its history says, and it answers the
next operation by that. -/
theorem last_write_wins (history : List Operation) :
    (empty.after history).length = (lastLoad history).length ∧
      (empty.after history).Shows (remembered history) ∧
      ∀ operation, (empty.after history).Answers (remembered history) operation
        ((empty.after history).perform operation) := by
  have hrecalls := recalls_after history
  exact ⟨hrecalls.length, shows_of_cells hrecalls.cell, hrecalls.answers⟩

end IttyBitty.Memory
