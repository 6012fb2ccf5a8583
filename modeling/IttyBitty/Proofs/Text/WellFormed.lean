import IttyBitty.Text.Utf8
import Mathlib.Tactic.SplitIfs

/-!
# Well-formed UTF-8

The well-formed sequences are listed with the code points that they stand for (`Spells`):
what follows a first byte is narrower after E0, ED, F0 and F4. They are what the encoder
writes for characters, one each, and what the decoder reads as one character. So the decoder
inverts the encoder, and where a byte string is no encoded text, it stops at the first place
where no character begins (`decode_of_ill_formed`).
-/

namespace IttyBitty.Utf8

/-! ## Sequences -/

/-- A byte that continues a sequence. -/
def Trails (b : UInt8) : Prop := 0x80 ≤ b.toNat ∧ b.toNat ≤ 0xBF

/-- The well-formed sequences and their code points, as the Unicode standard has them. -/
inductive Spells : List UInt8 → Nat → Prop
  | one {a : UInt8} (ha : a.toNat ≤ 0x7F) : Spells [a] a.toNat
  | two {a b : UInt8} (ha : 0xC2 ≤ a.toNat ∧ a.toNat ≤ 0xDF) (hb : Trails b) :
      Spells [a, b] (64 * (a.toNat - 0xC0) + (b.toNat - 0x80))
  | three {a b c : UInt8} (ha : 0xE0 ≤ a.toNat ∧ a.toNat ≤ 0xEF) (hb : Trails b)
      (hleast : a.toNat = 0xE0 → 0xA0 ≤ b.toNat) (hgreatest : a.toNat = 0xED → b.toNat ≤ 0x9F)
      (hc : Trails c) :
      Spells [a, b, c] (64 * (64 * (a.toNat - 0xE0) + (b.toNat - 0x80)) + (c.toNat - 0x80))
  | four {a b c d : UInt8} (ha : 0xF0 ≤ a.toNat ∧ a.toNat ≤ 0xF4) (hb : Trails b)
      (hleast : a.toNat = 0xF0 → 0x90 ≤ b.toNat) (hgreatest : a.toNat = 0xF4 → b.toNat ≤ 0x8F)
      (hc : Trails c) (hd : Trails d) :
      Spells [a, b, c, d]
        (64 * (64 * (64 * (a.toNat - 0xF0) + (b.toNat - 0x80)) + (c.toNat - 0x80))
          + (d.toNat - 0x80))

variable {s bytes rest : List UInt8} {n : Nat} {c : Char}

theorem toNat_ofNat_of_valid (h : n.isValidChar) : (Char.ofNat n).toNat = n := by
  rw [Char.ofNat, dif_pos h]
  rfl

/-- A well-formed sequence stands for a character: neither a surrogate nor too large. -/
theorem Spells.valid (h : Spells s n) : n.isValidChar := by
  cases h with
  | one ha => exact .inl (by omega)
  | two ha hb =>
      have := hb.2
      exact .inl (by omega)
  | three ha hb hleast hgreatest hc =>
      have := hb.1
      have := hb.2
      have := hc.1
      have := hc.2
      unfold Nat.isValidChar
      omega
  | four ha hb hleast hgreatest hc hd =>
      have := hb.1
      have := hb.2
      have := hc.2
      have := hd.2
      exact .inr (by omega)

private theorem ofNat_eq (b : UInt8) (h : n = b.toNat) : UInt8.ofNat n = b := by
  rw [h, UInt8.ofNat_toNat]

/-- **A well-formed sequence is what is written for its character.** -/
theorem Spells.utf8EncodeChar_eq (h : Spells s n) :
    String.utf8EncodeChar (Char.ofNat n) = s := by
  have hvalue : (Char.ofNat n).val.toNat = n := toNat_ofNat_of_valid h.valid
  rw [String.utf8EncodeChar]
  simp only [hvalue]
  cases h with
  | @one a ha => rw [if_pos ha, ofNat_eq a rfl]
  | @two a b ha hb =>
      obtain ⟨hb, hb'⟩ := hb
      rw [if_neg (by omega), if_pos (by omega), ofNat_eq a (by omega), ofNat_eq b (by omega)]
  | @three a b c ha hb hleast hgreatest hc =>
      obtain ⟨hb, hb'⟩ := hb
      obtain ⟨hc, hc'⟩ := hc
      rw [if_neg (by omega), if_neg (by omega), if_pos (by omega), ofNat_eq a (by omega),
        ofNat_eq b (by omega), ofNat_eq c (by omega)]
  | @four a b c d ha hb hleast hgreatest hc hd =>
      obtain ⟨hb, hb'⟩ := hb
      obtain ⟨hc, hc'⟩ := hc
      obtain ⟨hd, hd'⟩ := hd
      rw [if_neg (by omega), if_neg (by omega), if_neg (by omega), ofNat_eq a (by omega),
        ofNat_eq b (by omega), ofNat_eq c (by omega), ofNat_eq d (by omega)]

private theorem exists_byte (h : n < 256) : ∃ b : UInt8, UInt8.ofNat n = b ∧ b.toNat = n :=
  ⟨UInt8.ofNat n, rfl, by rw [UInt8.toNat_ofNat', Nat.mod_eq_of_lt h]⟩

/-- **What is written for a character is well formed** and stands for it. -/
theorem spells_utf8EncodeChar (c : Char) : Spells (String.utf8EncodeChar c) c.toNat := by
  have hvalid : c.toNat.isValidChar := c.valid
  rw [String.utf8EncodeChar]
  simp only [Char.toNat_val]
  generalize c.toNat = n at hvalid
  split
  · obtain ⟨a, hbyte, ha⟩ := exists_byte (n := n) (by omega)
    rw [hbyte, ← ha]
    exact .one (by omega)
  · split
    · obtain ⟨a, hfirst, ha⟩ := exists_byte (n := n / 64 % 32 + 192) (by omega)
      obtain ⟨b, hsecond, hb⟩ := exists_byte (n := n % 64 + 128) (by omega)
      have hn : n = 64 * (a.toNat - 0xC0) + (b.toNat - 0x80) := by omega
      rw [hfirst, hsecond, hn]
      exact .two (by omega) ⟨by omega, by omega⟩
    · split
      · obtain ⟨a, hfirst, ha⟩ := exists_byte (n := n / 4096 % 16 + 224) (by omega)
        obtain ⟨b, hsecond, hb⟩ := exists_byte (n := n / 64 % 64 + 128) (by omega)
        obtain ⟨d, hthird, hd⟩ := exists_byte (n := n % 64 + 128) (by omega)
        have hn : n = 64 * (64 * (a.toNat - 0xE0) + (b.toNat - 0x80)) + (d.toNat - 0x80) := by
          omega
        unfold Nat.isValidChar at hvalid
        rw [hfirst, hsecond, hthird, hn]
        exact .three (by omega) ⟨by omega, by omega⟩ (by omega) (by omega) ⟨by omega, by omega⟩
      · unfold Nat.isValidChar at hvalid
        obtain ⟨a, hfirst, ha⟩ := exists_byte (n := n / 262144 % 8 + 240) (by omega)
        obtain ⟨b, hsecond, hb⟩ := exists_byte (n := n / 4096 % 64 + 128) (by omega)
        obtain ⟨d, hthird, hd⟩ := exists_byte (n := n / 64 % 64 + 128) (by omega)
        obtain ⟨e, hfourth, he⟩ := exists_byte (n := n % 64 + 128) (by omega)
        have hn : n = 64 * (64 * (64 * (a.toNat - 0xF0) + (b.toNat - 0x80)) + (d.toNat - 0x80))
            + (e.toNat - 0x80) := by omega
        rw [hfirst, hsecond, hthird, hfourth, hn]
        exact .four (by omega) ⟨by omega, by omega⟩ (by omega) (by omega) ⟨by omega, by omega⟩
          ⟨by omega, by omega⟩

/-! ## First bytes -/

section Lead

variable {a : UInt8}

theorem lead_one (h : a.toNat ≤ 0x7F) : lead a = .character (Char.ofNat a.toNat) := by
  rw [lead]
  exact if_pos h

theorem lead_two (h : 0xC2 ≤ a.toNat ∧ a.toNat ≤ 0xDF) :
    lead a = .sequence ⟨a, a.toNat - 0xC0, 1, 1, 0x80, 0xBF⟩ := by
  rw [lead]
  simp only
  rw [if_neg (by omega), if_neg (by omega), if_pos (by omega)]

theorem lead_three (h : 0xE0 ≤ a.toNat ∧ a.toNat ≤ 0xEF) :
    lead a = .sequence ⟨a, a.toNat - 0xE0, 1, 2, if a.toNat = 0xE0 then 0xA0 else 0x80,
      if a.toNat = 0xED then 0x9F else 0xBF⟩ := by
  rw [lead]
  simp only
  rw [if_neg (by omega), if_neg (by omega), if_neg (by omega)]
  by_cases hfirst : a.toNat = 0xE0
  · rw [if_pos hfirst, if_pos hfirst, if_neg (by omega), hfirst]
  · rw [if_neg hfirst, if_neg hfirst]
    by_cases hsurrogate : a.toNat = 0xED
    · rw [if_pos hsurrogate, if_pos hsurrogate, hsurrogate]
    · rw [if_neg hsurrogate, if_neg hsurrogate, if_pos (by omega)]

theorem lead_four (h : 0xF0 ≤ a.toNat ∧ a.toNat ≤ 0xF4) :
    lead a = .sequence ⟨a, a.toNat - 0xF0, 1, 3, if a.toNat = 0xF0 then 0x90 else 0x80,
      if a.toNat = 0xF4 then 0x8F else 0xBF⟩ := by
  rw [lead]
  simp only
  rw [if_neg (by omega), if_neg (by omega), if_neg (by omega), if_neg (by omega),
    if_neg (by omega), if_neg (by omega)]
  by_cases hfirst : a.toNat = 0xF0
  · rw [if_pos hfirst, if_pos hfirst, if_neg (by omega), hfirst]
  · rw [if_neg hfirst, if_neg hfirst]
    by_cases hlast : a.toNat = 0xF4
    · rw [if_neg (by omega), if_pos hlast, if_pos hlast, hlast]
    · rw [if_pos (by omega), if_neg hlast]

theorem lead_invalid (h : 0x80 ≤ a.toNat ∧ a.toNat < 0xC2 ∨ 0xF4 < a.toNat) :
    lead a = .invalid := by
  rw [lead]
  simp only
  rw [if_neg (by omega)]
  by_cases hlow : a.toNat < 0xC2
  · rw [if_pos hlow]
  · rw [if_neg hlow, if_neg (by omega), if_neg (by omega), if_neg (by omega), if_neg (by omega),
      if_neg (by omega), if_neg (by omega), if_neg (by omega)]

end Lead

/-! ## Characters one by one -/

/-- The first character that some bytes complete, behind a sequence that may be open, and what
follows it. -/
def next? : Option Partial → List UInt8 → Option (Char × List UInt8)
  | _, [] => none
  | none, b :: rest =>
    match lead b with
    | .character c => some (c, rest)
    | .sequence p => next? (some p) rest
    | .invalid => none
  | some p, b :: rest =>
    match p.continue b with
    | .character c => some (c, rest)
    | .sequence q => next? (some q) rest
    | .invalid => none

section Open

variable {first : UInt8} {bits read owed least greatest : Nat}

/-- The last byte that is owed completes a character. -/
theorem next?_last :
    next? (some ⟨first, bits, read, 1, least, greatest⟩) bytes = some (c, rest) ↔
      ∃ b : UInt8, (least ≤ b.toNat ∧ b.toNat ≤ greatest) ∧
        c = Char.ofNat (64 * bits + (b.toNat - 0x80)) ∧ bytes = b :: rest := by
  constructor
  · intro h
    cases bytes with
    | nil => cases h
    | cons b bytes =>
        rw [next?, Partial.continue] at h
        by_cases hrange : b.toNat < least ∨ greatest < b.toNat
        · simp only [if_pos hrange] at h
          cases h
        · simp only [if_neg hrange, Nat.le_refl, if_true, Option.some.injEq, Prod.mk.injEq] at h
          obtain ⟨hchar, hrest⟩ := h
          exact ⟨b, by omega, hchar.symm, by rw [hrest]⟩
  · rintro ⟨b, hrange, hchar, rfl⟩
    rw [next?, Partial.continue, hchar]
    simp only [if_neg (show ¬ (b.toNat < least ∨ greatest < b.toNat) by omega), Nat.le_refl,
      if_true]

/-- Any other byte that is owed leaves one less. -/
theorem next?_owed :
    next? (some ⟨first, bits, read, owed + 2, least, greatest⟩) bytes = some (c, rest) ↔
      ∃ (b : UInt8) (bytes' : List UInt8), (least ≤ b.toNat ∧ b.toNat ≤ greatest) ∧
        bytes = b :: bytes' ∧
        next? (some ⟨first, 64 * bits + (b.toNat - 0x80), read + 1, owed + 1, 0x80, 0xBF⟩) bytes'
          = some (c, rest) := by
  have howed : ¬ owed + 2 ≤ 1 := by omega
  constructor
  · intro h
    cases bytes with
    | nil => cases h
    | cons b bytes =>
        rw [next?, Partial.continue] at h
        by_cases hrange : b.toNat < least ∨ greatest < b.toNat
        · simp only [if_pos hrange] at h
          cases h
        · simp only [if_neg hrange, if_neg howed] at h
          exact ⟨b, bytes, by omega, rfl, h⟩
  · rintro ⟨b, bytes', hrange, rfl, h⟩
    rw [next?, Partial.continue]
    simp only [if_neg (show ¬ (b.toNat < least ∨ greatest < b.toNat) by omega), if_neg howed]
    exact h

end Open

/-- A second byte whose range depends on the first is one that continues a sequence, with a
bound of its own behind two first bytes. -/
private theorem narrowed_iff {first low high lowest highest : Nat} {b : UInt8}
    (hlow : 0x80 ≤ low) (hhigh : high ≤ 0xBF) :
    ((if first = lowest then low else 0x80) ≤ b.toNat ∧
        b.toNat ≤ if first = highest then high else 0xBF) ↔
      Trails b ∧ (first = lowest → low ≤ b.toNat) ∧ (first = highest → b.toNat ≤ high) := by
  unfold Trails
  split <;> split <;> omega

/-- **A character is read from a well-formed sequence**, whatever follows it. -/
theorem next?_append (h : Spells s n) (rest : List UInt8) :
    next? none (s ++ rest) = some (Char.ofNat n, rest) := by
  cases h with
  | one ha =>
      rw [List.singleton_append, next?, lead_one ha]
  | @two a b ha hb =>
      rw [List.cons_append, next?, lead_two ha]
      exact next?_last.mpr ⟨b, hb, rfl, rfl⟩
  | @three a b c ha hb hleast hgreatest hc =>
      have hrange := (narrowed_iff (by omega) (by omega)).mpr ⟨hb, hleast, hgreatest⟩
      rw [List.cons_append, next?, lead_three ha]
      exact next?_owed.mpr ⟨b, _, hrange, rfl, next?_last.mpr ⟨c, hc, rfl, rfl⟩⟩
  | @four a b c d ha hb hleast hgreatest hc hd =>
      have hrange := (narrowed_iff (by omega) (by omega)).mpr ⟨hb, hleast, hgreatest⟩
      rw [List.cons_append, next?, lead_four ha]
      exact next?_owed.mpr ⟨b, _, hrange, rfl,
        next?_owed.mpr ⟨c, _, hc, rfl, next?_last.mpr ⟨d, hd, rfl, rfl⟩⟩⟩

/-- **A character is read from nothing else** than a well-formed sequence. -/
theorem spells_of_next? (h : next? none bytes = some (c, rest)) :
    ∃ s n, Spells s n ∧ c = Char.ofNat n ∧ bytes = s ++ rest := by
  cases bytes with
  | nil => cases h
  | cons a bytes =>
      rw [next?] at h
      have hlt := a.toNat_lt
      have hcases : a.toNat ≤ 0x7F ∨ (0xC2 ≤ a.toNat ∧ a.toNat ≤ 0xDF) ∨
          (0xE0 ≤ a.toNat ∧ a.toNat ≤ 0xEF) ∨ (0xF0 ≤ a.toNat ∧ a.toNat ≤ 0xF4) ∨
          (0x80 ≤ a.toNat ∧ a.toNat < 0xC2 ∨ 0xF4 < a.toNat) := by omega
      rcases hcases with ha | ha | ha | ha | ha
      · simp only [lead_one ha, Option.some.injEq, Prod.mk.injEq] at h
        obtain ⟨hchar, hrest⟩ := h
        exact ⟨_, _, .one ha, hchar.symm, by rw [hrest, List.singleton_append]⟩
      · rw [lead_two ha] at h
        obtain ⟨b, hb, hchar, rfl⟩ := next?_last.mp h
        exact ⟨_, _, .two ha hb, hchar, rfl⟩
      · rw [lead_three ha] at h
        obtain ⟨b, _, hb, rfl, hlast⟩ := next?_owed.mp h
        obtain ⟨d, hd, hchar, rfl⟩ := next?_last.mp hlast
        obtain ⟨htrails, hleast, hgreatest⟩ := (narrowed_iff (by omega) (by omega)).mp hb
        exact ⟨_, _, .three ha htrails hleast hgreatest hd, hchar, rfl⟩
      · rw [lead_four ha] at h
        obtain ⟨b, _, hb, rfl, howed⟩ := next?_owed.mp h
        obtain ⟨d, _, hd, rfl, hlast⟩ := next?_owed.mp howed
        obtain ⟨e, he, hchar, rfl⟩ := next?_last.mp hlast
        obtain ⟨htrails, hleast, hgreatest⟩ := (narrowed_iff (by omega) (by omega)).mp hb
        exact ⟨_, _, .four ha htrails hleast hgreatest hd he, hchar, rfl⟩
      · rw [lead_invalid ha] at h
        cases h

theorem next?_eq_none_iff :
    next? none bytes = none ↔ ∀ c, ¬ String.utf8EncodeChar c <+: bytes := by
  constructor
  · rintro h c ⟨rest, rfl⟩
    rw [next?_append (spells_utf8EncodeChar c)] at h
    cases h
  · intro h
    cases hnext : next? none bytes with
    | none => rfl
    | some next =>
        obtain ⟨c, rest⟩ := next
        obtain ⟨s, n, hspells, -, rfl⟩ := spells_of_next? hnext
        refine absurd ?_ (h (Char.ofNat n))
        rw [hspells.utf8EncodeChar_eq]
        exact List.prefix_append s rest

/-- Any bytes are an encoded text and something that no character begins. -/
theorem exists_encode_append (bytes : List UInt8) :
    ∃ t rest, bytes = encode t ++ rest ∧ next? none rest = none := by
  induction hlength : bytes.length using Nat.strongRecOn generalizing bytes with
  | ind length ih =>
      cases hnext : next? none bytes with
      | none => exact ⟨[], bytes, rfl, hnext⟩
      | some next =>
          obtain ⟨c, rest⟩ := next
          obtain ⟨s, n, hspells, -, rfl⟩ := spells_of_next? hnext
          have hshorter : rest.length < length := by
            -- every sequence has a first byte
            have hne : s ≠ [] := by cases hspells <;> nofun
            have hpos := List.length_pos_iff.mpr hne
            rw [List.length_append] at hlength
            omega
          obtain ⟨t, rest', hrest, hnone⟩ := ih rest.length hshorter rest rfl
          refine ⟨Char.ofNat n :: t, rest', ?_, hnone⟩
          rw [encode, List.flatMap_cons, hspells.utf8EncodeChar_eq, List.append_assoc, hrest]
          rfl

/-! ## Decoding -/

/-- A character that is read goes behind the others, and the reading goes on behind it. -/
theorem scan_of_next? {state : Option Partial} (h : next? state bytes = some (c, rest)) :
    ∃ size, bytes.length = size + rest.length ∧ ∀ offset done,
      scan offset done state bytes = scan (offset + size) (c :: done) none rest := by
  -- the reader and the decoder go through the bytes in the same states
  fun_induction next? state bytes with
  | case1 => cases h
  | case2 b tail c' hlead =>
      rw [Option.some.injEq, Prod.mk.injEq] at h
      obtain ⟨rfl, rfl⟩ := h
      exact ⟨1, Nat.add_comm _ _, fun offset done => by rw [scan, hlead]⟩
  | case3 b tail p hlead ih =>
      obtain ⟨size, hsize, hscan⟩ := ih h
      refine ⟨size + 1, by rw [List.length_cons]; omega, fun offset done => ?_⟩
      rw [scan, hlead]
      simp only
      rw [hscan, Nat.add_assoc, Nat.add_comm 1]
  | case4 => cases h
  | case5 p b tail c' hcontinue =>
      rw [Option.some.injEq, Prod.mk.injEq] at h
      obtain ⟨rfl, rfl⟩ := h
      exact ⟨1, Nat.add_comm _ _, fun offset done => by rw [scan, hcontinue]⟩
  | case6 p b tail q hcontinue ih =>
      obtain ⟨size, hsize, hscan⟩ := ih h
      refine ⟨size + 1, by rw [List.length_cons]; omega, fun offset done => ?_⟩
      rw [scan, hcontinue]
      simp only
      rw [hscan, Nat.add_assoc, Nat.add_comm 1]
  | case7 => cases h

theorem scan_encode_append (t : Text) (rest : List UInt8) (offset : Nat) (done : Text) :
    scan offset done none (encode t ++ rest)
      = scan (offset + (encode t).length) (t.reverse ++ done) none rest := by
  induction t generalizing offset done with
  | nil => rfl
  | cons c t ih =>
      have hcons : encode (c :: t) = String.utf8EncodeChar c ++ encode t := rfl
      have hnext := next?_append (spells_utf8EncodeChar c) (encode t ++ rest)
      rw [Char.ofNat_toNat] at hnext
      obtain ⟨size, hsize, hscan⟩ := scan_of_next? hnext
      rw [List.length_append] at hsize
      obtain rfl : size = (String.utf8EncodeChar c).length := by omega
      rw [hcons, List.append_assoc, hscan, ih, List.length_append, List.reverse_cons,
        List.append_assoc, Nat.add_assoc]
      rfl

/-- **The decoder inverts the encoder.** -/
theorem decode_encode (t : Text) : decode (encode t) = .ok t := by
  have hscan := scan_encode_append t [] 0 []
  rw [List.append_nil, List.append_nil] at hscan
  rw [decode, hscan, scan, List.reverse_reverse]
  rfl

/-- A byte-order mark is a character of the text. -/
example : decode [0xEF, 0xBB, 0xBF, 0x61] = .ok ['\uFEFF', 'a'] := rfl

/-- A reading came to no character behind `start`: it was refused, or it has come to `stop`
with the sequence still open. -/
inductive Stuck (start stop : Nat) : Except Fault Progress → Prop
  | refused {fault : Fault} (h : fault.offset = start) : Stuck start stop (.error fault)
  | unfinished {chars : Text} {p : Partial} (h : start + p.read = stop) :
      Stuck start stop (.ok ⟨chars, some p⟩)

theorem read_of_lead {b : UInt8} {p : Partial} (h : lead b = .sequence p) : p.read = 1 := by
  rw [lead] at h
  simp only at h
  split_ifs at h <;> cases h <;> rfl

theorem read_of_continue {p q : Partial} {b : UInt8} (h : p.continue b = .sequence q) :
    q.read = p.read + 1 := by
  rw [Partial.continue] at h
  simp only at h
  split_ifs at h
  cases h
  rfl

theorem stuck_of_open {p : Partial} (h : next? (some p) bytes = none) (start : Nat)
    (done : Text) :
    Stuck start (start + p.read + bytes.length)
      (scan (start + p.read) done (some p) bytes) := by
  induction bytes generalizing p with
  | nil => exact .unfinished rfl
  | cons b bytes ih =>
      rw [next?] at h
      rw [scan]
      cases hcontinue : p.continue b with
      | character c =>
          rw [hcontinue] at h
          cases h
      | sequence q =>
          rw [hcontinue] at h
          have hread := read_of_continue hcontinue
          have hoffset : start + p.read + 1 = start + q.read := by omega
          have hstop : start + p.read + (bytes.length + 1) = start + q.read + bytes.length := by
            omega
          rw [List.length_cons, hstop]
          simp only
          rw [hoffset]
          exact ih h
      | invalid => exact .refused (by simp [Partial.fault])

/-- Where no character begins, the reading stops there. -/
theorem stuck_of_not_next? (h : next? none bytes = none) (hne : bytes ≠ []) (start : Nat)
    (done : Text) : Stuck start (start + bytes.length) (scan start done none bytes) := by
  cases bytes with
  | nil => exact absurd rfl hne
  | cons b bytes =>
      rw [next?] at h
      rw [scan]
      cases hlead : lead b with
      | character c =>
          rw [hlead] at h
          cases h
      | sequence p =>
          rw [hlead] at h
          have hread := read_of_lead hlead
          have hstop : start + (bytes.length + 1) = start + p.read + bytes.length := by omega
          rw [List.length_cons, hstop, ← hread]
          exact stuck_of_open h start done
      | invalid => exact .refused rfl

/-- The first ill-formed sequence of some bytes begins at an offset: in front of it are
characters, and none begins there. -/
structure BreaksAt (bytes : List UInt8) (offset : Nat) : Prop where
  before : ∃ t, encode t = bytes.take offset
  inside : offset < bytes.length
  here : ∀ c, ¬ String.utf8EncodeChar c <+: bytes.drop offset

/-- **Bytes that are no encoded text are refused at their first ill-formed sequence.** -/
theorem decode_of_ill_formed (h : ∀ t, encode t ≠ bytes) :
    ∃ fault, decode bytes = .error fault ∧ BreaksAt bytes fault.offset := by
  obtain ⟨t, rest, rfl, hnone⟩ := exists_encode_append bytes
  have hne : rest ≠ [] := by
    rintro rfl
    exact h t (List.append_nil _).symm
  have hbreaks : BreaksAt (encode t ++ rest) (encode t).length := by
    have hpos := List.length_pos_iff.mpr hne
    refine ⟨⟨t, (List.take_left ..).symm⟩, by rw [List.length_append]; omega, ?_⟩
    rw [List.drop_left]
    exact next?_eq_none_iff.mp hnone
  have hstuck := stuck_of_not_next? hnone hne (encode t).length (t.reverse ++ [])
  have hscan := scan_encode_append t rest 0 []
  rw [Nat.zero_add] at hscan
  rw [← hscan] at hstuck
  rw [decode]
  generalize scan 0 [] none (encode t ++ rest) = result at hstuck
  cases hstuck with
  | @refused fault hfault => exact ⟨fault, rfl, hfault ▸ hbreaks⟩
  | @unfinished chars p hstop =>
      refine ⟨_, rfl, ?_⟩
      have hoffset : (p.fault (encode t ++ rest).length .unexpectedEnd).offset
          = (encode t).length := by
        rw [Partial.fault, List.length_append, ← hstop]
        simp
      rw [hoffset]
      exact hbreaks

theorem decode_eq_ok_iff {t : Text} : decode bytes = .ok t ↔ encode t = bytes := by
  constructor
  · intro h
    by_cases hother : ∃ t', encode t' = bytes
    · obtain ⟨t', rfl⟩ := hother
      rw [decode_encode] at h
      cases h
      rfl
    · obtain ⟨fault, hfault, -⟩ := decode_of_ill_formed (not_exists.mp hother)
      rw [hfault] at h
      cases h
  · rintro rfl
    exact decode_encode t

end IttyBitty.Utf8
