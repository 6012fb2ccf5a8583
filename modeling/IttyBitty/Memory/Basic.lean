import IttyBitty.Word

/-!
# Memory

A memory is 4096 words and the length of the program that was loaded into it. The length only says
how much of the memory is written out again; running programs read and write all of it. Loading
starts at address 0 and clears what the program does not fill.
-/

namespace IttyBitty

/-- A place in memory. -/
abbrev Address := Fin 4096

/-- The address that the low twelve bits of an integer name. -/
def Address.ofInt (n : Int) : Address := ⟨(n % 4096).toNat, by omega⟩

/-- The words of the memory and the length of the loaded program. -/
structure Memory where
  cells : Vector Word 4096
  length : Nat
  length_le : length ≤ 4096
  deriving DecidableEq

namespace Memory

/-- The number of words. -/
def size : Nat := 4096

/-- Why a memory cannot be loaded, read or written: a program of too many words or bytes, a listing
that goes on after its 4096th word, or an address that is no place. -/
inductive Error
  | tooManyWords (count : Nat)
  | tooManyBytes (count : Nat)
  | tooManyRows
  | noSuchAddress
  deriving DecidableEq, Repr

/-- The text of an error. -/
def Error.message : Error → String
  | .tooManyWords count => s!"program too long: {count} words (maximum 4096)"
  | .tooManyBytes count => s!"program too long: {count} bytes (maximum 8192)"
  | .tooManyRows => "program too long: more than 4096 words"
  | .noSuchAddress => "address out of range"

/-! ## Loading -/

/-- The memory that holds the given words from address 0 on, and zeros after them. -/
def ofWords (words : List Word) (fits : words.length ≤ 4096) : Memory where
  cells := ⟨(words ++ List.replicate (4096 - words.length) 0).toArray, by
    simp only [List.size_toArray, List.length_append, List.length_replicate]
    omega⟩
  length := words.length
  length_le := fits

/-- A memory of zeros with no program. -/
def empty : Memory := ofWords [] (Nat.zero_le _)

/-- Loads words, if there are no more than fit. -/
def loadWords (words : List Word) : Except Error Memory :=
  if fits : words.length ≤ 4096 then .ok (ofWords words fits)
  else .error (.tooManyWords words.length)

/-- Loads the low sixteen bits of each integer. -/
def load (values : List Int) : Except Error Memory := loadWords (values.map Word.ofInt)

/-! ## Access -/

/-- The word at an address. -/
def fetch (m : Memory) (a : Address) : Word := m.cells[a]

/-- The memory with another word at an address. -/
def store (m : Memory) (a : Address) (w : Word) : Memory := { m with cells := m.cells.set a w }

/-- The word at a number that may be no address. -/
def read (m : Memory) (a : Nat) : Except Error Word :=
  if h : a < 4096 then .ok (m.fetch ⟨a, h⟩) else .error .noSuchAddress

/-- Stores the low sixteen bits of an integer at a number that may be no address. -/
def write (m : Memory) (a : Nat) (value : Int) : Except Error Memory :=
  if h : a < 4096 then .ok (m.store ⟨a, h⟩ (Word.ofInt value)) else .error .noSuchAddress

/-- All words in order of their addresses. -/
def words (m : Memory) : List Word := m.cells.toList

/-- The words of the loaded program, as they are now. -/
def program (m : Memory) : List Word := m.words.take m.length

/-! ## Laws of access -/

theorem length_words (m : Memory) : m.words.length = 4096 := by simp [words]

theorem fetch_store (m : Memory) (a b : Address) (w : Word) :
    (m.store a w).fetch b = if a = b then w else m.fetch b := by
  simp only [fetch, store, Fin.getElem_fin, Vector.getElem_set, Fin.ext_iff]

end Memory

end IttyBitty
