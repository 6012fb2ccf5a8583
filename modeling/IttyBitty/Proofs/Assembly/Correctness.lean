import IttyBitty.Proofs.Assembly.Amounts
import IttyBitty.Proofs.Assembly.FirstPass
import IttyBitty.Proofs.Instruction.Encoding
import Mathlib.Data.List.Nodup

/-!
# The assembler is correct and complete

The second pass gives every statement the word that means it, if its data word
or its label is one. With the first pass, a text has a program exactly if its
lines are well formed, and the program translates them.
-/

namespace IttyBitty.Assembly

/-! ## Labels -/

/-- In a table without two entries for a key, an entry can be looked up. -/
theorem lookup_eq_some_iff_mem {table : Labels} (h : (table.map Prod.fst).Nodup)
    {label : Text} {index : Nat} :
    table.lookup label = some index ↔ (label, index) ∈ table := by
  rw [List.lookup_eq_some_iff]
  constructor
  · rintro ⟨above, below, rfl, -⟩
    exact List.mem_append_right _ (List.mem_cons_self ..)
  · intro hmem
    obtain ⟨above, below, rfl⟩ := List.append_of_mem hmem
    refine ⟨above, below, rfl, ?_⟩
    rintro ⟨label', index'⟩ hmem'
    rw [List.map_append, List.nodup_append] at h
    rw [bne_iff_ne]
    rintro rfl
    exact h.2.2 _ (List.mem_map_of_mem hmem') _ (List.mem_cons_self ..) rfl

/-- **What is looked up is what the lines bind.** -/
theorem lookup_eq_some_iff_binds {a : Assembler} {raws : List Text} (h : Reads {} raws a)
    (hdistinct : (labels raws).Nodup) {label : Text} {index : Nat} :
    a.labels.lookup label = some index ↔ Binds raws label index := by
  have hlabels : a.labels = (bindings 0 raws).reverse := by
    rw [h.labels]
    exact List.append_nil _
  have hnodup : (a.labels.map Prod.fst).Nodup := by
    rw [hlabels, List.map_reverse, map_fst_bindings]
    exact List.nodup_reverse.mpr hdistinct
  rw [lookup_eq_some_iff_mem hnodup, hlabels, List.mem_reverse, mem_bindings_zero_iff]

/-! ## The second pass -/

/-- What the words of a statement depend on: its digits or its label. -/
def Resolves (raws : List Text) : Body → Prop
  | .data digits => IsDataWord digits
  | .address _ label => ∃ index, Binds raws label index ∧ index ≤ 4095
  | _ => True

variable {raws : List Text} {bound : Labels}

theorem resolve_eq_ok_iff (hbound : ∀ label index, bound.lookup label = some index ↔
      Binds raws label index) {label : Text} {index : Nat} :
    bound.resolve label = .ok index ↔ Binds raws label index ∧ index ≤ 4095 := by
  rw [Labels.resolve, ← hbound]
  cases hlookup : bound.lookup label with
  | none => exact ⟨nofun, fun h => nomatch h.1⟩
  | some found =>
      simp only [Option.some.injEq]
      by_cases hlt : found < 4096
      · rw [if_pos hlt, Except.ok.injEq]
        exact ⟨fun h => ⟨h, by omega⟩, fun h => h.1⟩
      · rw [if_neg hlt]
        exact ⟨nofun, fun h => by omega⟩

/-- A statement that resolves has a word, which means the statement. -/
theorem word_spec (hbound : ∀ label index, bound.lookup label = some index ↔
      Binds raws label index) {statement : List Text} {body : Body}
    (h : Denotes statement body) :
    ((∃ w, body.word bound = .ok w) ↔ Resolves raws body) ∧
      ∀ w, body.word bound = .ok w → Means raws body w := by
  cases h with
  | data digits =>
      constructor
      · constructor
        · rintro ⟨w, hw⟩
          exact (dataWord_eq_ok_iff.mp hw).1
        · intro hdigits
          have hlt := Hex.number_lt hdigits.2.1
          refine ⟨BitVec.ofNat 16 (Hex.number digits), dataWord_eq_ok_iff.mpr ⟨hdigits, ?_⟩⟩
          rw [BitVec.toNat_ofNat, Nat.mod_eq_of_lt hlt]
      · intro w hw
        exact .data (dataWord_eq_ok_iff.mp hw).2
  | plain hmode =>
      refine ⟨⟨fun _ => trivial, fun _ => ⟨_, rfl⟩⟩, ?_⟩
      rintro w ⟨⟩
      exact .plain (Instruction.decode_encode (Instruction.fits_zero _))
  | shift hmode hdigits =>
      refine ⟨⟨fun _ => trivial, fun _ => ⟨_, rfl⟩⟩, ?_⟩
      rintro w ⟨⟩
      exact .shift (Instruction.decode_encode (Instruction.fits_of_shift hmode hdigits.2.2.1))
  | @address op hmode label =>
      constructor
      · constructor
        · rintro ⟨w, hw⟩
          cases hresolve : bound.resolve label with
          | error problem => simp [Body.word, hresolve, Except.map] at hw
          | ok index => exact ⟨index, (resolve_eq_ok_iff hbound).mp hresolve⟩
        · rintro ⟨index, hindex⟩
          rw [Body.word, (resolve_eq_ok_iff hbound).mpr hindex]
          exact ⟨_, rfl⟩
      · intro w hw
        cases hresolve : bound.resolve label with
        | error problem => simp [Body.word, hresolve, Except.map] at hw
        | ok index =>
            obtain ⟨hbinds, hle⟩ := (resolve_eq_ok_iff hbound).mp hresolve
            rw [Body.word, hresolve] at hw
            cases hw
            exact .address hbinds
              (Instruction.decode_encode (Instruction.fits_of_address hmode (by omega)))

/-- The words come out if every statement has one, each in its place. -/
theorem wordsFrom_spec (bound : Labels) (done : Array Word) (ss : List Statement) :
    ((Assembler.wordsFrom bound done ss).2 = none ↔
      ∀ s ∈ ss, ∃ w, s.body.word bound = .ok w) ∧
    ((Assembler.wordsFrom bound done ss).2 = none →
      ∃ ws, List.Forall₂ (fun s w => s.body.word bound = .ok w) ss ws ∧
        (Assembler.wordsFrom bound done ss).1.toList = done.toList ++ ws) := by
  induction ss generalizing done with
  | nil => exact ⟨⟨fun _ => nofun, fun _ => rfl⟩, fun _ => ⟨[], .nil, (List.append_nil _).symm⟩⟩
  | cons s ss ih =>
      rw [Assembler.wordsFrom]
      cases hs : s.body.word bound with
      | error problem =>
          refine ⟨⟨nofun, fun h => ?_⟩, nofun⟩
          obtain ⟨w, hw⟩ := h s (List.mem_cons_self ..)
          rw [hs] at hw
          cases hw
      | ok w =>
          obtain ⟨hiff, hwords⟩ := ih (done.push w)
          refine ⟨?_, fun h => ?_⟩
          · rw [hiff, List.forall_mem_cons]
            exact ⟨fun h => ⟨⟨w, hs⟩, h⟩, fun h => h.2⟩
          · obtain ⟨ws, hws, hdone⟩ := hwords h
            refine ⟨w :: ws, .cons hs hws, ?_⟩
            rw [hdone, Array.toList_push, List.append_assoc, List.singleton_append]

/-! ## Both passes -/

theorem mem_bodies_iff {ss : List (List Text)} {bodies : List Body}
    (h : List.Forall₂ Denotes ss bodies) {body : Body} :
    body ∈ bodies ↔ ∃ statement ∈ ss, Denotes statement body := by
  induction h with
  | nil => simp
  | cons hhead _ ih =>
      rw [List.mem_cons, ih, List.exists_mem_cons_iff]
      exact or_congr_left ⟨fun h => h ▸ hhead, fun h => h.unique hhead⟩

/-- A well-formed program can be read. -/
theorem WellFormed.readable (h : WellFormed raws) : Readable [] 0 raws :=
  ⟨h.named, h.distinct, fun _ _ => List.not_mem_nil, h.denoted, by
    rw [Nat.zero_add]
    exact h.few⟩

/-- Lines make a program exactly if they can be read and all that they denote
resolves. -/
theorem wellFormed_iff {bodies : List Body}
    (hbodies : List.Forall₂ Denotes (statements raws) bodies) :
    WellFormed raws ↔ Readable [] 0 raws ∧ ∀ body ∈ bodies, Resolves raws body := by
  constructor
  · intro h
    refine ⟨h.readable, fun body hbody => ?_⟩
    obtain ⟨statement, hmem, hdenotes⟩ := (mem_bodies_iff hbodies).mp hbody
    cases hdenotes with
    | data digits => exact h.data digits hmem
    | plain hmode => trivial
    | shift hmode hdigits => trivial
    | address hmode label => exact h.resolved _ hmem _ label (.address hmode label)
  · rintro ⟨h, hresolves⟩
    have hfew := h.few
    rw [Nat.zero_add] at hfew
    refine ⟨h.named, h.distinct, h.denoted, hfew, ?_, ?_⟩
    · intro digits hmem
      exact hresolves _ ((mem_bodies_iff hbodies).mpr ⟨_, hmem, .data digits⟩)
    · intro statement hmem op label hdenotes
      exact hresolves _ ((mem_bodies_iff hbodies).mpr ⟨_, hmem, hdenotes⟩)

/-- The words of statements that denote something. -/
theorem forall_word_iff {a : Assembler} (h : Reads {} raws a)
    (hdistinct : (labels raws).Nodup) {bodies : List Body}
    (hbodies : List.Forall₂ Denotes (statements raws) bodies)
    (hstatements : a.statements.toList.map Statement.body = bodies) :
    (∀ s ∈ a.statements.toList, ∃ w, s.body.word a.labels = .ok w) ↔
      ∀ body ∈ bodies, Resolves raws body := by
  have hbound : ∀ label index, a.labels.lookup label = some index ↔ Binds raws label index :=
    fun _ _ => lookup_eq_some_iff_binds h hdistinct
  rw [← hstatements, List.forall_mem_map]
  refine forall₂_congr fun s hs => ?_
  have hmem : s.body ∈ bodies := hstatements ▸ List.mem_map_of_mem hs
  obtain ⟨statement, -, hdenotes⟩ := (mem_bodies_iff hbodies).mp hmem
  exact (word_spec hbound hdenotes).1

/-- The words that come out translate the statements. -/
theorem translates_of_words {a : Assembler} (h : Reads {} raws a)
    (hdistinct : (labels raws).Nodup) {bodies : List Body}
    (hbodies : List.Forall₂ Denotes (statements raws) bodies)
    (hstatements : a.statements.toList.map Statement.body = bodies) {ws : List Word}
    (hws : List.Forall₂ (fun s w => s.body.word a.labels = .ok w) a.statements.toList ws) :
    Translates raws ⟨ws, a.labels⟩ := by
  have hbound : ∀ label index, a.labels.lookup label = some index ↔ Binds raws label index :=
    fun _ _ => lookup_eq_some_iff_binds h hdistinct
  refine ⟨?_, hbound⟩
  have hwords : List.Forall₂ (fun body w => body.word a.labels = .ok w) bodies ws := by
    rw [← hstatements, List.forall₂_map_left_iff]
    exact hws
  -- both lists are matched with what the statements denote
  clear hstatements hws
  generalize statements raws = ss at hbodies
  induction hbodies generalizing ws with
  | nil =>
      cases hwords
      exact .nil
  | cons hdenotes _ ih =>
      cases hwords with
      | cons hw hwords =>
          exact .cons ⟨_, hdenotes, (word_spec hbound hdenotes).2 _ hw⟩ (ih hwords)

/-- **The assembler is correct and complete**, whatever it has assembled before. A
text has a program exactly if its lines are well formed, and then the program
translates them. -/
theorem assemble_correct (assembler : Assembler) (t : Text) :
    ((∃ p, (assembler.assemble (.text t)).2 = .ok p) ↔ WellFormed (Text.lines t)) ∧
      ∀ p, (assembler.assemble (.text t)).2 = .ok p → Translates (Text.lines t) p := by
  obtain ⟨hreadable, hreads⟩ :=
    readLines_spec (a := {}) 1 (Nat.zero_le _) (Text.lines t)
  rw [Assembler.assemble, Source.decode]
  unfold Assembler.ofText
  rcases hpass : Assembler.readLines {} 1 (Text.lines t) with ⟨a, _ | error⟩
  · -- the first pass comes through: the second decides
    rw [hpass] at hreadable hreads
    have hread := hreads rfl
    have hlines := hreadable.mp rfl
    obtain ⟨bodies, hbodies, hstatements⟩ := hread.statements
    have hstatements : a.statements.toList.map Statement.body = bodies := hstatements
    obtain ⟨hwords, hleaves⟩ := wordsFrom_spec a.labels #[] a.statements.toList
    rw [forall_word_iff hread hlines.distinct hbodies hstatements] at hwords
    rw [wellFormed_iff hbodies]
    rcases hemit : Assembler.wordsFrom a.labels #[] a.statements.toList with ⟨ws, _ | error⟩
    · rw [hemit] at hwords hleaves
      simp only [hpass, Assembler.emit, hemit]
      refine ⟨⟨fun _ => ⟨hlines, hwords.mp rfl⟩, fun _ => ⟨_, rfl⟩⟩, ?_⟩
      rintro p ⟨⟩
      obtain ⟨ws', hws', hdone⟩ := hleaves rfl
      have hdone : ws.toList = ws' := hdone
      rw [Assembler.program, hdone]
      exact translates_of_words hread hlines.distinct hbodies hstatements hws'
    · rw [hemit] at hwords
      simp only [hpass, Assembler.emit, hemit]
      refine ⟨⟨?_, fun h => ?_⟩, ?_⟩
      · rintro ⟨_, ⟨⟩⟩
      · cases hwords.mpr h.2
      · rintro _ ⟨⟩
  · -- a line cannot be read
    rw [hpass] at hreadable
    simp only [hpass]
    refine ⟨⟨?_, fun h => ?_⟩, ?_⟩
    · rintro ⟨_, ⟨⟩⟩
    · cases hreadable.mpr h.readable
    · rintro _ ⟨⟩

/-- A label that is bound below the statement that names it. -/
theorem assemble_correct_forward :
    let source := "loop:jmp end // over\n\nend: dw 1f".toList
    ∃ p, (Assembler.assemble {} (.text source)).2 = .ok p ∧ p.words = [0xc001, 0x001f] ∧
      Translates (Text.lines source) p :=
  ⟨_, by rfl, by rfl, (assemble_correct {} _).2 _ (by rfl)⟩

/-- A run of decimal digits whose value is below sixteen is refused as a shift amount if it is
long enough. -/
theorem assemble_padded_amount :
    let digits := List.replicate 5000 '0' ++ ['1']
    digits ≠ [] ∧ (∀ c ∈ digits, '0' ≤ c ∧ c ≤ '9') ∧ Decimal.number digits < 16 ∧
      ∀ p, (Assembler.assemble {} (.text (Op.shiftL.mnemonic.toList ++ ' ' :: digits))).2 ≠ .ok p := by
  intro digits
  have hdigits : ∀ c ∈ digits, '0' ≤ c ∧ c ≤ '9' :=
    List.forall_mem_append.mpr
      ⟨List.forall_mem_replicate.mpr (.inr (by decide)), List.forall_mem_singleton.mpr (by decide)⟩
  have hnumber : Decimal.number digits = 1 := Decimal.number_zeros 5000 ['1']
  have hlength : digits.length = 5001 := by
    rw [List.length_append, List.length_replicate, List.length_singleton]
  refine ⟨List.ne_nil_of_length_pos (by omega), hdigits, by omega, fun p hp => ?_⟩
  rw [assemble_longAmount rfl hdigits (by omega)] at hp
  cases hp

end IttyBitty.Assembly
