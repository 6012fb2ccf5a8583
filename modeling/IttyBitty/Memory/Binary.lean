import IttyBitty.Memory.Basic

/-!
# Binary images

A binary image is the bytes of the words, the low byte of each first, with nothing around them. An
odd byte at the end becomes the low half of one more word that does not count as part of the
program.
-/

namespace IttyBitty.Binary

/-- The word of a low and a high byte. -/
def word (low high : UInt8) : Word := BitVec.ofNat 16 (low.toNat + 256 * high.toNat)

/-- The words of the byte pairs, after those in `done`, which come last first; an odd byte makes a
word of its own. -/
def wordsFrom (done : List Word) : List UInt8 → List Word
  | low :: high :: rest => wordsFrom (word low high :: done) rest
  | [odd] => (word odd 0 :: done).reverse
  | [] => done.reverse

/-- The words of an image. -/
def words (bytes : List UInt8) : List Word := wordsFrom [] bytes

theorem length_wordsFrom (done : List Word) (bytes : List UInt8) :
    (wordsFrom done bytes).length = done.length + (bytes.length + 1) / 2 := by
  fun_induction wordsFrom done bytes with
  | case1 done low high rest ih => simp only [ih, List.length_cons]; omega
  | case2 done odd => simp
  | case3 done => simp

/-- An image has one word for every two bytes, and one more for an odd byte. -/
theorem length_words (bytes : List UInt8) : (words bytes).length = (bytes.length + 1) / 2 := by
  simp [words, length_wordsFrom]

/-- The memory that an image describes. -/
def load (bytes : List UInt8) : Except Memory.Error Memory :=
  if fits : bytes.length ≤ 8192 then
    .ok { Memory.ofWords (words bytes) (by rw [length_words]; omega) with
      length := bytes.length / 2
      length_le := by omega }
  else .error (.tooManyBytes bytes.length)

/-- The two bytes of a word. -/
def bytes (w : Word) : List UInt8 := [UInt8.ofNat (w.toNat % 256), UInt8.ofNat (w.toNat / 256)]

/-- The image of some words. -/
def ofWords (ws : List Word) : List UInt8 := ws.flatMap bytes

/-- The image of a memory's program. -/
def ofMemory (m : Memory) : List UInt8 := ofWords m.program

end IttyBitty.Binary
