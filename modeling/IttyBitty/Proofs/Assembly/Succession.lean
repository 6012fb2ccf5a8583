import IttyBitty.Proofs.Assembly.Extension
import IttyBitty.Proofs.Assembly.Reporting

/-!
# One assembler and many sources

An assembler that has assembled other sources gives a source what a new one gives it, and
looks the same afterwards. What it looks like is known in every case: after a program, after
an error of the first pass and after one of the second. Only a source that cannot be read
leaves it as it was.
-/

namespace IttyBitty.Assembly

variable {a a' : Assembler} {number : Nat} {raw : Text} {raws : List Text} {e : Error}

/-! ## Where the first pass stops -/

/-- Lines that are not all read end in a line with an error, and the lines above it are
read. -/
theorem readLines_eq_some (h : a.readLines number raws = (a', some e)) :
    ∃ above raw below mid, raws = above ++ raw :: below ∧
      a.readLines number above = (mid, none) ∧
      mid.readLine (number + above.length) raw = (a', some e) := by
  induction raws generalizing a number with
  | nil => cases h
  | cons raw rest ih =>
      rw [Assembler.readLines] at h
      rcases hline : a.readLine number raw with ⟨mid, _ | e'⟩
      · rw [hline] at h
        obtain ⟨above, raw', below, mid', rfl, habove, hraw'⟩ := ih h
        refine ⟨raw :: above, raw', below, mid', rfl, ?_, ?_⟩
        · rw [Assembler.readLines, hline]
          exact habove
        · rw [List.length_cons, Nat.add_comm above.length, ← Nat.add_assoc]
          exact hraw'
      · rw [hline] at h
        cases h
        exact ⟨[], raw, rest, a, rfl, rfl, hline⟩

theorem words_readTokens (a : Assembler) (number : Nat) (raw : Text) (statement : List Text) :
    (a.readTokens number raw statement).1.words = a.words := by
  cases statement with
  | nil => rfl
  | cons mnemonic operands =>
      rw [Assembler.readTokens]
      split
      · rfl
      · cases Body.ofTokens mnemonic operands <;> rfl

theorem words_readLine (a : Assembler) (number : Nat) (raw : Text) :
    (a.readLine number raw).1.words = a.words := by
  rw [Assembler.readLine]
  cases Line.parse? raw with
  | none => rfl
  | some line =>
      rcases bindLabel_eq a line.label with ⟨name, -, -, hbind⟩ | ⟨-, hbind⟩
      · simp only [hbind]
        rfl
      · simp only [hbind]
        exact words_readTokens (bound a line.label) number raw line.tokens

/-- The first pass has no words. -/
theorem words_readLines (a : Assembler) (number : Nat) (raws : List Text) :
    (a.readLines number raws).1.words = a.words := by
  induction raws generalizing a number with
  | nil => rfl
  | cons raw rest ih =>
      have hwords := words_readLine a number raw
      rw [Assembler.readLines]
      rcases hline : a.readLine number raw with ⟨a', _ | e⟩
      · rw [hline] at hwords
        exact (ih a' (number + 1)).trans hwords
      · rw [hline] at hwords
        exact hwords

theorem readTokens_eq_some {statement : List Text}
    (h : a.readTokens number raw statement = (a', some e)) :
    a'.labels = a.labels ∧ a'.statements = a.statements := by
  cases statement with
  | nil => cases h
  | cons mnemonic operands =>
      rw [Assembler.readTokens] at h
      split at h
      · cases h
        exact ⟨rfl, rfl⟩
      · cases hbody : Body.ofTokens mnemonic operands with
        | ok body =>
            rw [hbody] at h
            cases h
        | error problem =>
            rw [hbody] at h
            cases h
            exact ⟨rfl, rfl⟩

/-- **A line with an error** has no statement, and its label is bound if it is a new one. -/
theorem readLine_eq_some (h : a.readLine number raw = (a', some e)) :
    a'.statements = a.statements ∧ ∀ label index, a'.labels.lookup label = some index ↔
      a.labels.lookup label = some index ∨
        labelOf raw = some label ∧ label ≠ [] ∧ label ∉ a.labels.map Prod.fst ∧
          index = a.statements.size := by
  rw [Assembler.readLine, parse?_eq] at h
  by_cases hnamed : labelOf raw = some []
  · rw [if_pos hnamed] at h
    cases h
    refine ⟨rfl, fun label index => ⟨.inl, ?_⟩⟩
    rintro (hlookup | ⟨hlabel, hsome, -⟩)
    · exact hlookup
    · rw [hnamed] at hlabel
      exact absurd (Option.some.inj hlabel).symm hsome
  rw [if_neg hnamed] at h
  rcases bindLabel_eq a (labelOf raw) with ⟨name, hname, hmem, hbind⟩ | ⟨hfresh, hbind⟩
  · simp only [hbind] at h
    cases h
    refine ⟨rfl, fun label index => ⟨.inl, ?_⟩⟩
    rintro (hlookup | ⟨hlabel, -, hnew, -⟩)
    · exact hlookup
    · rw [hname] at hlabel
      obtain rfl := Option.some.inj hlabel
      exact absurd hmem hnew
  · simp only [hbind] at h
    obtain ⟨hlabels, hstatements⟩ := readTokens_eq_some h
    refine ⟨hstatements, fun label index => ?_⟩
    rw [hlabels, bound]
    cases hlabel : labelOf raw with
    | none => simp
    | some name =>
        have hnew := hfresh name hlabel
        have hsome : name ≠ [] := by
          rintro rfl
          exact hnamed hlabel
        by_cases heq : label = name
        · subst heq
          -- the label was not bound before
          have hunbound : a.labels.lookup label ≠ some index := by
            intro hlookup
            have hisSome : (a.labels.lookup label).isSome = true := by
              rw [hlookup]
              rfl
            obtain ⟨pair, hpair, hkey⟩ := List.lookup_isSome_iff.mp hisSome
            exact hnew (List.mem_map.mpr ⟨pair, hpair, (beq_iff_eq.mp hkey).symm⟩)
          simp [hunbound, hsome, hnew, eq_comm]
        · have hother : (label == name) = false := beq_eq_false_iff_ne.mpr heq
          have hname : name ≠ label := fun h => heq h.symm
          simp [List.lookup_cons, hother, hname]

/-! ## Where the second pass stops -/

/-- Words that do not all come out end before a statement that has none. -/
theorem wordsFrom_eq_some {bound : Labels} {done words : Array Word} {ss : List Statement}
    (h : Assembler.wordsFrom bound done ss = (words, some e)) :
    ∃ above s below ws problem, ss = above ++ s :: below ∧
      List.Forall₂ (fun s w => s.body.word bound = .ok w) above ws ∧
      words.toList = done.toList ++ ws ∧ s.body.word bound = .error problem ∧
      e = .ofProblem problem s.number s.raw := by
  induction ss generalizing done with
  | nil => cases h
  | cons s ss ih =>
      rw [Assembler.wordsFrom] at h
      cases hword : s.body.word bound with
      | error problem =>
          rw [hword] at h
          cases h
          exact ⟨[], s, ss, [], problem, rfl, .nil, (List.append_nil _).symm, hword, rfl⟩
      | ok w =>
          rw [hword] at h
          obtain ⟨above, s', below, ws, problem, rfl, hws, hwords, herror, rfl⟩ := ih h
          refine ⟨s :: above, s', below, w :: ws, problem, rfl, .cons hword hws, ?_, herror, rfl⟩
          rw [hwords, Array.toList_push, List.append_assoc, List.singleton_append]

/-- Words that all come out are those of the statements, in order. -/
theorem wordsFrom_eq_none {bound : Labels} {words : Array Word} {ss : List Statement}
    (h : Assembler.wordsFrom bound #[] ss = (words, none)) :
    List.Forall₂ (fun s w => s.body.word bound = .ok w) ss words.toList := by
  have hspec := wordsFrom_spec bound #[] ss
  rw [h] at hspec
  obtain ⟨ws, hws, hdone⟩ := hspec.2 rfl
  have hall : words.toList = ws := hdone
  rwa [hall]

/-- The statement has the word wherever it stands in a program with that label table. -/
def Settled (bound : Labels) (s : Statement) (w : Word) : Prop :=
  ∀ t a, Assembler.ofText t = (a, none) →
    (∀ label, a.labels.lookup label = bound.lookup label) →
    ∀ s' w', (s', w') ∈ a.statements.toList.zip a.words.toList → s'.body = s.body → w' = w

theorem settled_of_word {bound : Labels} {s : Statement} {w : Word}
    (h : s.body.word bound = .ok w) : Settled bound s w := by
  intro t a ha hlookup s' w' hmem hbody
  have hle : Labels.Le bound a.labels := by
    intro label index hbound
    rw [hlookup, hbound]
  obtain ⟨read, words, -, hwords, rfl⟩ := ofText_eq_none_iff.mp ha
  have hword := (List.forall₂_iff_zip.mp (wordsFrom_eq_none hwords)).2 hmem
  rw [hbody, hle.word h] at hword
  exact (Except.ok.inj hword).symm

/-! ## What a source leaves -/

/-- What an assembler looks like after a text with these lines, and what comes of it. -/
inductive Leaves (raws : List Text) : Assembler × Except Error Program → Prop
  /-- The first pass has stopped at a line: there are the statements and the labels of those
  above it, and its own label if it is a new one. -/
  | unread {above below : List Text} {raw : Text} {a : Assembler} {e : Error}
      (hraws : raws = above ++ raw :: below) (hclean : Faultless [] above)
      (hfault : FirstFault above raw e) (hstatements : Notes 1 above a.statements.toList)
      (hlabels : ∀ label index, a.labels.lookup label = some index ↔
        Binds above label index ∨
          labelOf raw = some label ∧ label ≠ [] ∧ label ∉ labels above ∧
            index = (statements above).length)
      (hwords : a.words = #[]) : Leaves raws (a, .error e)
  /-- The second pass has stopped at a statement: all statements and labels are there, and the
  words of the statements above it. -/
  | unresolved {above below : List Statement} {s : Statement} {a : Assembler}
      {problem : Problem} {e : Error} (hclean : Faultless [] raws)
      (hfirst : FirstUnresolved raws 1 raws e) (hstatements : Notes 1 raws a.statements.toList)
      (hlabels : ∀ label index, a.labels.lookup label = some index ↔ Binds raws label index)
      (hstop : a.statements.toList = above ++ s :: below)
      (herror : s.body.word a.labels = .error problem)
      (he : e = .ofProblem problem s.number s.raw)
      (hwords : List.Forall₂ (fun s w => s.body.word a.labels = .ok w ∧ Settled a.labels s w)
        above a.words.toList) : Leaves raws (a, .error e)
  /-- There is a program. -/
  | assembled {a : Assembler} (hclean : Faultless [] raws)
      (hstatements : Notes 1 raws a.statements.toList)
      (hlabels : ∀ label index, a.labels.lookup label = some index ↔ Binds raws label index)
      (hwords : List.Forall₂ (fun s w => s.body.word a.labels = .ok w) a.statements.toList
        a.words.toList) : Leaves raws (a, .ok a.program)

/-- What the first pass leaves of lines that it has read. -/
structure Pass (raws : List Text) (a : Assembler) : Prop where
  clean : Faultless [] raws
  behind : Behind raws a
  notes : Notes 1 raws a.statements.toList
  lookup : ∀ label index, a.labels.lookup label = some index ↔ Binds raws label index
  words : a.words = #[]

theorem pass_of_readLines (h : Assembler.readLines {} 1 raws = (a, none)) : Pass raws a := by
  obtain ⟨hreadable, hreads⟩ := readLines_spec (a := {}) 1 (Nat.zero_le _) raws
  obtain ⟨hclean, -⟩ := Behind.start.readLines_spec raws
  have hwords := words_readLines {} 1 raws
  rw [List.length_nil, Nat.zero_add] at hclean
  rw [h] at hreadable hreads hclean hwords
  have hread := hreads rfl
  have hable := hreadable.mp rfl
  obtain ⟨ss, hss, hstatements⟩ := readLines_notes h
  have hsize : a.statements.size = (statements raws).length := by
    rw [hread.size]
    exact Nat.zero_add _
  refine ⟨hclean rfl, ⟨fun label => ?_, hsize, ?_⟩, ?_,
    fun label index => lookup_eq_some_iff_binds hread hable.distinct, hwords⟩
  · rw [hread.labels, List.append_nil, List.map_reverse, map_fst_bindings, List.mem_reverse]
  · rw [hsize]
    exact Nat.zero_add (statements raws).length ▸ hable.few
  · rw [hstatements]
    exact hss

/-- An error of the first pass. -/
theorem leaves_of_readLines (h : Assembler.readLines {} 1 raws = (a, some e)) :
    Leaves raws (a, .error e) := by
  obtain ⟨above, raw, below, mid, rfl, habove, hraw⟩ := readLines_eq_some h
  obtain ⟨hclean, hbehind, hnotes, hlookup, hmid⟩ := pass_of_readLines habove
  obtain ⟨hstatements, hlabels⟩ := readLine_eq_some hraw
  have hwords := words_readLine mid (1 + above.length) raw
  rw [hraw] at hwords
  rw [Nat.add_comm] at hraw
  refine .unread rfl hclean (hbehind.readLine_eq_some_iff.mp (by rw [hraw])) ?_ ?_
    (hwords.trans hmid)
  · rw [hstatements]
    exact hnotes
  · intro label index
    rw [hlabels, hlookup, hbehind.labels, hbehind.size]

/-- A text read to its end. -/
theorem leaves_of_emit (h : Assembler.readLines {} 1 raws = (a, none)) :
    Leaves raws (match a.emit with
      | (a', some e) => (a', .error e)
      | (a', none) => (a', .ok a'.program)) := by
  obtain ⟨hclean, -, hnotes, hlookup, -⟩ := pass_of_readLines h
  have hfirst := fun e => emit_eq_some_iff (e := e) h
  rw [Assembler.emit] at hfirst ⊢
  rcases hwords : Assembler.wordsFrom a.labels #[] a.statements.toList with ⟨words, _ | e⟩
  · exact .assembled hclean hnotes hlookup (wordsFrom_eq_none hwords)
  · obtain ⟨above, s, below, ws, problem, hstop, hws, hdone, herror, he⟩ :=
      wordsFrom_eq_some hwords
    have hall : words.toList = ws := hdone
    rw [hwords] at hfirst
    refine .unresolved hclean ((hfirst e).mp rfl) hnotes hlookup hstop herror he ?_
    rw [← hall] at hws
    exact hws.imp fun s w hw => ⟨hw, settled_of_word hw⟩

/-- **What an assembler looks like** after a text that it has assembled from scratch. -/
theorem leaves_of_text (t : Text) :
    Leaves (Text.lines t) (Assembler.assemble {} (.text t)) := by
  rw [Assembler.assemble, Source.decode]
  dsimp only
  rw [Assembler.ofText]
  rcases hread : Assembler.readLines {} 1 (Text.lines t) with ⟨a, _ | e⟩
  · have hemit := leaves_of_emit hread
    dsimp only
    rcases hpass : a.emit with ⟨a', _ | e⟩
    · rw [hpass] at hemit
      exact hemit
    · rw [hpass] at hemit
      exact hemit
  · exact leaves_of_readLines hread

/-! ## Many sources -/

namespace Assembler

/-- An assembler after some sources, one by one. -/
def after (a : Assembler) (sources : List Source) : Assembler :=
  sources.foldl (fun a source => (a.assemble source).1) a

/-- A source that cannot be read does nothing. -/
theorem assemble_unreadable (a : Assembler) {source : Source} {fault : Utf8.Fault}
    (h : source.decode = .error fault) :
    a.assemble source = (a, .error (.unreadable fault)) := by
  rw [Assembler.assemble, h]

/-- A source that can be read makes of every assembler what it makes of a new one. -/
theorem assemble_readable (a : Assembler) {source : Source} {t : Text}
    (h : source.decode = .ok t) : a.assemble source = Assembler.assemble {} (.text t) := by
  rw [Assembler.assemble, Assembler.assemble, h]
  rfl

/-- **After some sources** an assembler is as the last one that could be read has left it, or
as it was if there is none. -/
theorem after_eq (a : Assembler) (sources : List Source) :
    ((∀ source ∈ sources, ∃ fault, source.decode = .error fault) ∧ a.after sources = a) ∨
    ∃ earlier source t later, sources = earlier ++ source :: later ∧ source.decode = .ok t ∧
      (∀ source' ∈ later, ∃ fault, source'.decode = .error fault) ∧
      a.after sources = (Assembler.assemble {} (.text t)).1 := by
  induction sources generalizing a with
  | nil => exact .inl ⟨nofun, rfl⟩
  | cons source sources ih =>
      have hafter : a.after (source :: sources) = (a.assemble source).1.after sources := rfl
      rw [hafter]
      rcases ih (a.assemble source).1 with ⟨hnone, hsame⟩ | ⟨earlier, last, t, later, rfl, hrest⟩
      · rw [hsame]
        cases hdecode : source.decode with
        | error fault =>
            rw [assemble_unreadable a hdecode]
            exact .inl ⟨List.forall_mem_cons.mpr ⟨⟨fault, hdecode⟩, hnone⟩, rfl⟩
        | ok t =>
            rw [assemble_readable a hdecode]
            exact .inr ⟨[], source, t, sources, rfl, hdecode, hnone, rfl⟩
      · exact .inr ⟨source :: earlier, last, t, later, rfl, hrest⟩

end Assembler

/-- What an assembler that has assembled some sources makes of the next one. -/
structure Memoryless (before : List Source) (source : Source) : Prop where
  /-- It is as the last source that could be read has left it, or new. -/
  state : ((∀ source ∈ before, ∃ fault, source.decode = .error fault) ∧
      Assembler.after {} before = {}) ∨
    ∃ earlier last t later, before = earlier ++ last :: later ∧ last.decode = .ok t ∧
      (∀ source ∈ later, ∃ fault, source.decode = .error fault) ∧
      Assembler.after {} before = (Assembler.assemble {} last).1
  /-- A source that cannot be read leaves it as it is. -/
  unreadable : ∀ fault, source.decode = .error fault →
    (Assembler.after {} before).assemble source =
      (Assembler.after {} before, .error (.unreadable fault))
  /-- A source that can be read comes out as with a new one. -/
  fresh : ∀ t, source.decode = .ok t →
    (Assembler.after {} before).assemble source = Assembler.assemble {} source
  /-- What is left then depends on the lines alone. -/
  leaves : ∀ t, source.decode = .ok t →
    Leaves (Text.lines t) ((Assembler.after {} before).assemble source)

/-- **An assembler has no memory** of earlier sources, whatever has become of them. -/
theorem memoryless (before : List Source) (source : Source) : Memoryless before source := by
  refine ⟨?_, ?_, ?_, ?_⟩
  · rcases Assembler.after_eq {} before with hnone | ⟨earlier, last, t, later, h, hlast, hlater, ha⟩
    · exact .inl hnone
    · refine .inr ⟨earlier, last, t, later, h, hlast, hlater, ?_⟩
      rw [ha, Assembler.assemble_readable {} hlast]
  · intro fault hfault
    exact Assembler.assemble_unreadable _ hfault
  · intro t ht
    rw [Assembler.assemble_readable _ ht, Assembler.assemble_readable {} ht]
  · intro t ht
    rw [Assembler.assemble_readable _ ht]
    exact leaves_of_text t

/-- Nothing is left of the label that was bound twice; the second pass has stopped behind one
word. -/
example : ((Assembler.after {} [.text "x: nop\nx:".toList]).assemble
    (.text "nop\njmp x".toList)).1.words = #[0xb000] := by rfl

end IttyBitty.Assembly
