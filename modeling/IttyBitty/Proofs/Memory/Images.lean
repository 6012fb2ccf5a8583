import IttyBitty.Proofs.Memory.Listings
import Mathlib.Data.List.GetD
import Mathlib.Data.List.Induction

/-!
# Loading binary images

An image is loaded if it has no more bytes than the memory has: the bytes go into the
words two by two, the low half of a word first. An odd byte at the end has a word of its
own behind the program. Writing the memory gives the bytes of the program back, and what
is written of any memory is loaded as its program, just as its listing is
(`Binary.round_trips`).
-/

namespace IttyBitty.Binary

/-! ## Words and their bytes -/

theorem toNat_word (low high : UInt8) :
    (word low high).toNat = low.toNat + 256 * high.toNat := by
  have hlow := low.toNat_lt
  have hhigh := high.toNat_lt
  rw [word, BitVec.toNat_ofNat]
  omega

/-- The halves of a word are the bytes it was made of. -/
theorem bytes_word (low high : UInt8) : bytes (word low high) = [low, high] := by
  have hlow := low.toNat_lt
  have hfirst : UInt8.ofNat ((word low high).toNat % 256) = low := by
    apply UInt8.toNat_inj.mp
    rw [UInt8.toNat_ofNat', toNat_word]
    omega
  have hsecond : UInt8.ofNat ((word low high).toNat / 256) = high := by
    apply UInt8.toNat_inj.mp
    have hhigh := high.toNat_lt
    rw [UInt8.toNat_ofNat', toNat_word]
    omega
  rw [bytes, hfirst, hsecond]

/-- What has been read already only stands in front. -/
theorem wordsFrom_append (done before : List Word) (b : List UInt8) :
    wordsFrom (done ++ before) b = before.reverse ++ wordsFrom done b := by
  fun_induction wordsFrom done b with
  | case1 done low high rest ih => rw [wordsFrom, ← List.cons_append, ih]
  | case2 done odd => simp [wordsFrom]
  | case3 done => simp [wordsFrom]

@[simp] theorem words_nil : words [] = [] := rfl

@[simp] theorem words_singleton (odd : UInt8) : words [odd] = [word odd 0] := rfl

@[simp] theorem words_cons_cons (low high : UInt8) (rest : List UInt8) :
    words (low :: high :: rest) = word low high :: words rest :=
  wordsFrom_append [] [word low high] rest

/-- **The word in a place** is made of the two bytes that belong to it; a byte that is
missing counts as zero. -/
theorem toNat_getElem?_words (b : List UInt8) (i : Nat) :
    ((words b)[i]?.getD 0).toNat
      = (b.getD (2 * i) 0).toNat + 256 * (b.getD (2 * i + 1) 0).toNat := by
  induction b using List.twoStepInduction generalizing i with
  | nil => simp
  | singleton odd => cases i <;> simp [toNat_word, Nat.mul_add]
  | cons_cons low high rest ih _ =>
      cases i with
      | zero => simp [toNat_word]
      | succ i => simpa [Nat.mul_add] using ih i

/-- Writing the words of the byte pairs gives the bytes back. -/
theorem ofWords_take_words (b : List UInt8) :
    ofWords ((words b).take (b.length / 2)) = b.take (b.length - b.length % 2) := by
  induction b using List.twoStepInduction with
  | nil => rfl
  | singleton odd => simp [ofWords]
  | cons_cons low high rest ih _ =>
      have hhalf : (low :: high :: rest).length / 2 = rest.length / 2 + 1 := by
        simp only [List.length_cons]
        omega
      have heven : (low :: high :: rest).length - (low :: high :: rest).length % 2
          = rest.length - rest.length % 2 + 2 := by
        simp only [List.length_cons]
        omega
      rw [hhalf, heven, words_cons_cons, List.take_succ_cons, List.take_succ_cons,
        List.take_succ_cons, ← ih, ofWords, List.flatMap_cons, bytes_word]
      rfl

/-! ## Loading -/

/-- The memory is the image of some bytes. -/
structure Pictures (b : List UInt8) (m : Memory) : Prop where
  length : m.length = b.length / 2
  /-- Two bytes are a word, the low half first; -/
  pair : ∀ a : Address, a.val < b.length / 2 →
    (m.fetch a).toNat = (b.getD (2 * a) 0).toNat + 256 * (b.getD (2 * a + 1) 0).toNat
  /-- an odd byte is the low half of the word behind the program; -/
  odd : b.length % 2 = 1 → ∀ a : Address, a.val = b.length / 2 →
    (m.fetch a).toNat = (b.getD (b.length - 1) 0).toNat
  /-- and nothing is behind them. -/
  zero : ∀ a : Address, (b.length + 1) / 2 ≤ a.val → m.fetch a = 0
  /-- What is written of the memory is all bytes but an odd one. -/
  written : ofMemory m = b.take (b.length - b.length % 2)

/-- **An image that fits is loaded** as the memory that it pictures. -/
theorem load_of_fits {b : List UInt8} (h : b.length ≤ 8192) :
    ∃ m, load b = .ok m ∧ Pictures b m := by
  have hfits : (words b).length ≤ 4096 := by
    rw [length_words]
    omega
  have hcell (a : Address) : ((Memory.ofWords (words b) hfits).fetch a).toNat
      = (b.getD (2 * a) 0).toNat + 256 * (b.getD (2 * a + 1) 0).toNat := by
    rw [Memory.fetch_ofWords, toNat_getElem?_words]
  refine ⟨_, dif_pos h, rfl, fun a _ => hcell a, ?odd, ?zero, ?written⟩
  case odd =>
    intro hodd a ha
    refine (hcell a).trans ?_
    have hlast : 2 * a.val = b.length - 1 := by omega
    have hmissing : b.getD (2 * a.val + 1) 0 = 0 := List.getD_eq_default _ _ (by omega)
    rw [hmissing, hlast]
    rfl
  case zero =>
    intro a ha
    apply BitVec.eq_of_toNat_eq
    refine (hcell a).trans ?_
    rw [List.getD_eq_default _ _ (by omega), List.getD_eq_default _ _ (by omega)]
    rfl
  case written =>
    rw [← ofWords_take_words, ofMemory, Memory.program, Memory.words, Memory.ofWords]
    have hhalf : b.length / 2 ≤ (words b).length := by
      rw [length_words]
      omega
    simp [List.take_append_of_le_length hhalf]

theorem load_of_not_fits {b : List UInt8} (h : 8192 < b.length) :
    load b = .error (.tooManyBytes b.length) :=
  dif_neg (by omega)

/-- **Binary images round-trip.** An image is loaded exactly if it fits, as the memory that
it pictures. What is written of any memory is loaded as its program with zeros behind it,
and so is the listing of the same memory. -/
theorem round_trips :
    (∀ b : List UInt8, (b.length ≤ 8192 → ∃ m, load b = .ok m ∧ Pictures b m) ∧
      (8192 < b.length → load b = .error (.tooManyBytes b.length))) ∧
    ∀ m : Memory, ∃ m', load (ofMemory m) = .ok m' ∧
      HexListing.load (HexListing.ofMemory m) = .ok m' ∧ m'.length = m.length ∧
      ∀ a : Address, m'.fetch a = if a.val < m.length then m.fetch a else 0 := by
  refine ⟨fun b => ⟨load_of_fits, load_of_not_fits⟩, fun m => ?_⟩
  have hfits : m.program.length ≤ 4096 := by
    rw [m.length_program]
    exact m.length_le
  obtain ⟨m', hload, hlength, hcells⟩ := HexListing.load_ofMemory m
  have hlisting : HexListing.load (HexListing.ofMemory m) = .ok (Memory.ofWords m.program hfits) :=
    HexListing.load_ofWords hfits
  obtain rfl := Except.ok.inj (hlisting.symm.trans hload)
  exact ⟨_, load_ofWords hfits, hload, hlength, hcells⟩

end IttyBitty.Binary
