import IttyBitty.Proofs.Assembly.Correctness
import IttyBitty.Proofs.Assembly.Extension
import IttyBitty.Proofs.Assembly.FirstFault
import IttyBitty.Proofs.Assembly.Spacing
import Mathlib.Logic.Relation

/-!
# The layout of a program

How a program is laid out does not matter to the assembler: where lines end, which lines are
empty, what the comments say, and how wide the blanks are. A label may stand on a line of its
own. Each of these changes leaves the statements of the lines and what the labels are bound
to, and nothing else enters the words and the label table.
-/

namespace IttyBitty.Assembly

/-! ## Lines that say the same -/

theorem bindings_append (k : Nat) (above below : List Text) :
    bindings k (above ++ below) =
      bindings k above ++ bindings (k + (statements above).length) below := by
  induction above generalizing k with
  | nil => rfl
  | cons raw above ih =>
      rw [List.cons_append, bindings, bindings, ih, statements_cons raw above, List.length_append,
        List.append_assoc, Nat.add_assoc]

/-- The lines have the same statements and bind the labels alike. -/
structure Agree (raws raws' : List Text) : Prop where
  statements_eq : statements raws' = statements raws
  bindings_perm : ∀ k, (bindings k raws').Perm (bindings k raws)

namespace Agree

variable {raws raws' raws'' above below : List Text}

protected theorem refl (raws : List Text) : Agree raws raws := ⟨rfl, fun _ => .refl _⟩

protected theorem symm (h : Agree raws raws') : Agree raws' raws :=
  ⟨h.statements_eq.symm, fun k => (h.bindings_perm k).symm⟩

protected theorem trans (h : Agree raws raws') (h' : Agree raws' raws'') : Agree raws raws'' :=
  ⟨h'.statements_eq.trans h.statements_eq, fun k => (h'.bindings_perm k).trans (h.bindings_perm k)⟩

theorem append {above' : List Text} (h : Agree above above') (h' : Agree raws raws') :
    Agree (above ++ raws) (above' ++ raws') := by
  refine ⟨?_, fun k => ?_⟩
  · rw [statements_append, statements_append, h.statements_eq, h'.statements_eq]
  · rw [bindings_append, bindings_append, h.statements_eq]
    exact (h.bindings_perm k).append (h'.bindings_perm _)

/-- Lines change their meaning only if one of them does. -/
theorem frame (above below : List Text) (h : Agree raws raws') :
    Agree (above ++ (raws ++ below)) (above ++ (raws' ++ below)) :=
  (Agree.refl above).append (h.append (.refl below))

/-- One line that has the label and the statement of another. -/
theorem of_line {raw raw' : Text} (hlabel : labelOf raw' = labelOf raw)
    (hstatement : statementOf raw' = statementOf raw) : Agree [raw] [raw'] := by
  refine ⟨?_, fun k => ?_⟩
  · rw [statements_singleton, statements_singleton, hstatement]
  · rw [bindings, bindings, hlabel]
    exact .refl _

/-- One line that has the tokens of another. -/
theorem of_tokens {raw raw' : Text} (h : tokens raw' = tokens raw) : Agree [raw] [raw'] :=
  of_line (by rw [labelOf, labelOf, h]) (by rw [statementOf, statementOf, h])

/-- A line without tokens can be left out. -/
theorem of_nil {raw : Text} (h : tokens raw = []) : Agree [] [raw] := by
  have hlabel : labelOf raw = none := by rw [labelOf, h]
  have hstatement : statementOf raw = [] := by rw [statementOf, h]
  refine ⟨?_, fun k => ?_⟩
  · rw [statements_singleton, if_pos hstatement]
    rfl
  · simp [bindings, hlabel]

/-- Lines without statements can change places. -/
theorem swap (habove : Assembly.statements above = []) (hbelow : Assembly.statements below = []) :
    Agree (above ++ below) (below ++ above) := by
  refine ⟨?_, fun k => ?_⟩
  · rw [statements_append, statements_append, habove, hbelow]
  · rw [bindings_append, bindings_append, habove, hbelow]
    exact List.perm_append_comm

/-- Many lines, each of which has the tokens of another. -/
theorem of_forall₂ (h : List.Forall₂ (fun raw raw' => tokens raw' = tokens raw) raws raws') :
    Agree raws raws' := by
  induction h with
  | nil => exact .refl []
  | cons hline _ ih => exact (of_tokens hline).append ih

theorem labels_perm (h : Agree raws raws') : (labels raws').Perm (labels raws) := by
  rw [← map_fst_bindings 0, ← map_fst_bindings 0]
  exact (h.bindings_perm 0).map _

/-- Lines that agree with lines that can be read can be read. -/
theorem readable (h : Agree raws raws') {bound : Labels} {k : Nat}
    (hreadable : Readable bound k raws) : Readable bound k raws' := by
  refine ⟨?_, ?_, ?_, ?_, ?_⟩
  · rw [h.labels_perm.mem_iff]
    exact hreadable.named
  · exact h.labels_perm.nodup_iff.mpr hreadable.distinct
  · intro label hlabel
    exact hreadable.fresh label (h.labels_perm.mem_iff.mp hlabel)
  · rw [h.statements_eq]
    exact hreadable.denoted
  · rw [h.statements_eq]
    exact hreadable.few

end Agree

/-! ## The assembler on lines that say the same -/

/-- What statements denote is settled by their tokens. -/
theorem denotes_unique {ss : List (List Text)} {bodies bodies' : List Body}
    (h : List.Forall₂ Denotes ss bodies) (h' : List.Forall₂ Denotes ss bodies') :
    bodies' = bodies := by
  induction h generalizing bodies' with
  | nil =>
      cases h'
      rfl
  | cons hdenotes _ ih =>
      cases h' with
      | cons hdenotes' hrest' => rw [hdenotes'.unique hdenotes, ih hrest']

/-- Statements that denote the same have the same words. -/
theorem wordsFrom_congr {old new : Labels} (h : old.Le new) {ss ss' : List Statement}
    (hbodies : ss'.map Statement.body = ss.map Statement.body) {done words : Array Word}
    (hold : Assembler.wordsFrom old done ss = (words, none)) :
    Assembler.wordsFrom new done ss' = (words, none) := by
  induction ss generalizing ss' done with
  | nil =>
      obtain rfl := List.map_eq_nil_iff.mp hbodies
      exact hold
  | cons s ss ih =>
      obtain ⟨s', rest', rfl, hbody, hrest⟩ := List.map_eq_cons_iff.mp hbodies
      rw [Assembler.wordsFrom] at hold ⊢
      cases hword : s.body.word old with
      | error problem =>
          rw [hword] at hold
          cases hold
      | ok w =>
          rw [hword] at hold
          rw [hbody, h.word hword]
          exact ih hrest hold

/-- The lines of a text that has a program can be read, and both passes have seen what is on
them. -/
theorem reads_of_ofText {t : Text} {a : Assembler} (ha : Assembler.ofText t = (a, none)) :
    Readable [] 0 (Text.lines t) ∧ ∃ read words, Reads {} (Text.lines t) read ∧
      Assembler.wordsFrom read.labels #[] read.statements.toList = (words, none) ∧
        a = { read with words } := by
  obtain ⟨read, words, hread, hwords, rfl⟩ := ofText_eq_none_iff.mp ha
  obtain ⟨hiff, hreads⟩ := readLines_spec (a := {}) 1 (Nat.zero_le _) (Text.lines t)
  rw [hread] at hiff hreads
  exact ⟨hiff.mp rfl, read, words, hreads rfl, hwords, rfl⟩

/-- **Texts whose lines agree** have the same words and the same label table, if one of them
has a program. -/
theorem ofText_of_agree {t t' : Text} (h : Agree (Text.lines t) (Text.lines t'))
    {a : Assembler} (ha : Assembler.ofText t = (a, none)) :
    ∃ a', Assembler.ofText t' = (a', none) ∧ a'.words = a.words ∧
      ∀ label, a'.labels.lookup label = a.labels.lookup label := by
  obtain ⟨hreadable, read, words, hreads, hwords, rfl⟩ := reads_of_ofText ha
  have hreadable' := h.readable hreadable
  obtain ⟨hiff, hreads'⟩ := readLines_spec (a := {}) 1 (Nat.zero_le _) (Text.lines t')
  have hnone := hiff.mpr hreadable'
  rcases hread' : Assembler.readLines {} 1 (Text.lines t') with ⟨read', error⟩
  rw [hread'] at hreads' hnone
  obtain rfl : error = none := hnone
  have hreads' : Reads {} (Text.lines t') read' := hreads' rfl
  have hlookup : ∀ label, read'.labels.lookup label = read.labels.lookup label := by
    intro label
    refine Option.ext fun index => ?_
    rw [lookup_eq_some_iff_binds hreads' hreadable'.distinct,
      lookup_eq_some_iff_binds hreads hreadable.distinct, ← mem_bindings_zero_iff,
      ← mem_bindings_zero_iff, (h.bindings_perm 0).mem_iff]
  obtain ⟨bodies, hbodies, hstatements⟩ := hreads.statements
  obtain ⟨bodies', hbodies', hstatements'⟩ := hreads'.statements
  rw [h.statements_eq] at hbodies'
  have hsame : read'.statements.toList.map Statement.body =
      read.statements.toList.map Statement.body := by
    rw [hstatements', hstatements, denotes_unique hbodies hbodies']
  have hle : Labels.Le read.labels read'.labels := by
    intro label index hold
    rw [hlookup, hold]
  exact ⟨{ read' with words },
    ofText_eq_none_iff.mpr ⟨read', words, hread', wordsFrom_congr hle hsame hwords, rfl⟩,
    rfl, hlookup⟩

/-! ## Changes of the layout -/

/-- A text in front of the start of a line. -/
def IsAbove (above : Text) : Prop := above = [] ∨ above.getLast? = some '\n'

/-- A text behind the end of a line. -/
def IsBelow (below : Text) : Prop := below = [] ∨ below.head? = some '\n'

/-- Another layout of a line. -/
inductive Reline : Text → Text → Prop
  /-- A comment says something else. -/
  | recomment (code old new : Text) :
      Reline (code ++ '/' :: '/' :: old) (code ++ '/' :: '/' :: new)
  /-- There is no comment any more. -/
  | uncomment (raw : Text) : Reline raw (beforeComment raw)
  /-- There is a comment now, behind a blank or on an empty line. -/
  | comment {code : Text} (hcode : ∀ c ∈ code.getLast?, isBlank c = true) (new : Text) :
      Reline code (code ++ '/' :: '/' :: new)
  /-- The line starts with other blanks. -/
  | leading {gap gap' : Text} (hgap : IsGap gap) (hgap' : IsGap gap') (code : Text) :
      Reline (gap ++ code) (gap' ++ code)
  /-- The line ends in other blanks. -/
  | trailing {gap gap' : Text} (hgap : IsGap gap) (hgap' : IsGap gap') (code : Text) :
      Reline (code ++ gap) (code ++ gap')
  /-- Other blanks stand between two parts of the line. -/
  | between {gap gap' : Text} (hgap : IsGap gap) (hgap' : IsGap gap') (hsome : gap ≠ [])
      (hsome' : gap' ≠ []) (code rest : Text) :
      Reline (code ++ (gap ++ rest)) (code ++ (gap' ++ rest))
  /-- Other blanks, or none, stand behind the colon of a label. -/
  | colon {gap gap' lead name : Text} (hgap : IsGap gap) (hgap' : IsGap gap') (hlead : IsGap lead)
      (hname : IsName name) (rest : Text) :
      Reline (lead ++ (name ++ ':' :: (gap ++ rest))) (lead ++ (name ++ ':' :: (gap' ++ rest)))

/-- Another layout of a text. -/
inductive Relayout : Text → Text → Prop
  /-- Every line feed has one more carriage return in front of it. -/
  | returns (t : Text) : Relayout t (t.flatMap fun c => if c = '\n' then ['\r', '\n'] else [c])
  /-- One line has another layout. -/
  | line {above below raw raw' : Text} (habove : IsAbove above) (hbelow : IsBelow below)
      (hraw : '\n' ∉ raw) (hraw' : '\n' ∉ raw') (h : Reline raw raw') :
      Relayout (above ++ (raw ++ below)) (above ++ (raw' ++ below))
  /-- There is one more line, without anything but blanks and a comment. -/
  | insert {above idle : Text} (habove : IsAbove above) (hidle : '\n' ∉ idle)
      (hcode : IsGap (beforeComment idle)) (rest : Text) :
      Relayout (above ++ rest) (above ++ (idle ++ '\n' :: rest))
  /-- The same at the end. -/
  | append {idle : Text} (hidle : '\n' ∉ idle) (hcode : IsGap (beforeComment idle)) (t : Text) :
      Relayout t (t ++ '\n' :: idle)
  /-- A label stands on a line of its own, right above the line that it stood on. -/
  | detach {above lead name gap : Text} (habove : IsAbove above) (hlead : IsGap lead)
      (hname : IsName name) (hgap : IsGap gap) (rest : Text) :
      Relayout (above ++ (lead ++ (name ++ ':' :: rest)))
        (above ++ (lead ++ (name ++ ':' :: (gap ++ '\n' :: rest))))
  /-- A label stands on a line of its own, further down: on the lines from its old place to
  the new one there is no statement. -/
  | lower {above lead name gap idle : Text} (habove : IsAbove above) (hlead : IsGap lead)
      (hname : IsName name) (hgap : IsGap gap) (hidle : statements (Text.pieces idle) = [])
      (below : Text) :
      Relayout (above ++ (lead ++ (name ++ ':' :: (idle ++ '\n' :: below))))
        (above ++ (lead ++ (idle ++ '\n' :: (name ++ ':' :: (gap ++ '\n' :: below)))))

/-! ## What a change of the layout leaves -/

theorem Reline.agree {raw raw' : Text} (h : Reline raw raw') : Agree [raw] [raw'] := by
  cases h with
  | recomment code old new =>
      refine .of_tokens ?_
      rw [tokens, tokens, beforeComment_slashes code new old]
  | uncomment =>
      refine .of_tokens ?_
      rw [tokens, tokens, beforeComment_idempotent]
  | comment hcode new => exact .of_tokens (tokens_append_comment hcode new)
  | leading hgap hgap' code =>
      refine .of_tokens ?_
      rw [tokens_gap_append hgap, tokens_gap_append hgap']
  | trailing hgap hgap' code =>
      refine .of_tokens ?_
      rw [tokens_append_gap_nil hgap, tokens_append_gap_nil hgap']
  | between hgap hgap' hsome hsome' code rest =>
      refine .of_tokens ?_
      rw [tokens_append_gap hgap hsome, tokens_append_gap hgap' hsome']
  | colon hgap hgap' hlead hname rest =>
      obtain ⟨hlabel, hstatement⟩ := parts_definition hlead hname (_ ++ rest)
      obtain ⟨hlabel', hstatement'⟩ := parts_definition hlead hname (_ ++ rest)
      rw [tokens_gap_append hgap] at hstatement
      rw [tokens_gap_append hgap'] at hstatement'
      exact .of_line (hlabel'.trans hlabel.symm) (hstatement'.trans hstatement.symm)

/-- What stands above a line does not mix with it. -/
theorem pieces_above {above : Text} (h : IsAbove above) :
    ∃ ps, ∀ t, Text.pieces (above ++ t) = ps ++ Text.pieces t := by
  rcases h with rfl | hlast
  · exact ⟨[], fun t => rfl⟩
  · obtain ⟨u, rfl⟩ := List.getLast?_eq_some_iff.mp hlast
    refine ⟨Text.pieces u, fun t => ?_⟩
    rw [List.append_assoc, List.singleton_append, Text.pieces_append_feed]

/-- What stands below a line does not mix with it. -/
theorem pieces_below {below : Text} (h : IsBelow below) :
    ∃ ps, ∀ raw, '\n' ∉ raw → Text.pieces (raw ++ below) = raw :: ps := by
  rcases h with rfl | hhead
  · refine ⟨[], fun raw hraw => ?_⟩
    rw [List.append_nil, Text.pieces_of_not_mem hraw]
  · obtain ⟨u, rfl⟩ := List.head?_eq_some_iff.mp hhead
    refine ⟨Text.pieces u, fun raw hraw => ?_⟩
    rw [Text.pieces_append_feed, Text.pieces_of_not_mem hraw, List.singleton_append]

theorem isGap_return : IsGap ['\r'] := by
  intro c hc
  obtain rfl := List.mem_singleton.mp hc
  decide

/-- The pieces between the line feeds say what the lines say. -/
theorem agree_pieces (t : Text) : Agree (Text.lines t) (Text.pieces t) := by
  have hreturn : ∀ line : Text, tokens line = tokens (Text.dropReturn line) := by
    intro line
    rw [Text.dropReturn]
    split
    · rename_i hlast
      obtain ⟨u, rfl⟩ := List.getLast?_eq_some_iff.mp hlast
      rw [List.dropLast_concat]
      exact tokens_append_gap_nil isGap_return u
    · rfl
  have hdropped : ∀ ps : List Text, Agree (ps.map Text.dropReturn) ps := by
    intro ps
    refine .of_forall₂ ?_
    rw [List.forall₂_map_left_iff]
    exact List.forall₂_same.mpr fun line _ => hreturn line
  obtain ⟨init, last, hpieces⟩ :=
    (List.eq_nil_or_concat (Text.pieces t)).resolve_left (Text.pieces_ne_nil t)
  rw [Text.lines, hpieces, List.concat_eq_append]
  cases last with
  | nil =>
      have hdrop : Text.dropLastEmpty (init ++ [[]]) = init := by simp [Text.dropLastEmpty]
      rw [hdrop]
      have hempty : Agree [] [[]] := .of_nil rfl
      have hnil := (Agree.refl init).append hempty
      rw [List.append_nil] at hnil
      exact (hdropped init).trans hnil
  | cons c last =>
      have hdrop : Text.dropLastEmpty (init ++ [c :: last]) = init ++ [c :: last] := by
        simp [Text.dropLastEmpty]
      rw [hdrop]
      exact hdropped _

/-- A carriage return in front of each line feed ends up behind the pieces. -/
theorem pieces_returns (t : Text) :
    List.Forall₂ (fun raw raw' => raw' = raw ∨ raw' = raw ++ ['\r']) (Text.pieces t)
      (Text.pieces (t.flatMap fun c => if c = '\n' then ['\r', '\n'] else [c])) := by
  induction t with
  | nil => exact .cons (.inl rfl) .nil
  | cons c t ih =>
      rw [List.flatMap_cons]
      by_cases hc : c = '\n'
      · subst hc
        exact .cons (.inr rfl) ih
      · rw [if_neg hc]
        have hline : '\n' ∉ [c] := fun h => hc (List.mem_singleton.mp h).symm
        obtain ⟨piece, rest, hpieces⟩ := List.exists_cons_of_ne_nil (Text.pieces_ne_nil t)
        obtain ⟨piece', rest', hpieces'⟩ := List.exists_cons_of_ne_nil (Text.pieces_ne_nil
          (t.flatMap fun c => if c = '\n' then ['\r', '\n'] else [c]))
        have hold : Text.pieces (c :: t) = (c :: piece) :: rest :=
          Text.pieces_append_of_not_mem hline hpieces
        rw [hold, Text.pieces_append_of_not_mem hline hpieces']
        rw [hpieces, hpieces'] at ih
        cases ih with
        | cons hpiece hrest =>
            refine .cons ?_ hrest
            rcases hpiece with rfl | rfl
            · exact .inl rfl
            · exact .inr rfl

/-- No second label stands behind a label, where the statements denote something. -/
theorem parts_behind {lead name raw : Text} (hlead : IsGap lead) (hname : IsName name)
    (hdenoted : ∀ statement ∈ statements [lead ++ (name ++ ':' :: raw)],
      ∃ body, Denotes statement body) :
    labelOf raw = none ∧ statementOf raw = tokens raw := by
  have hstatement := (parts_definition hlead hname raw).2
  rw [statements_singleton, hstatement] at hdenoted
  rw [labelOf, statementOf]
  cases htokens : tokens raw with
  | nil => exact ⟨rfl, rfl⟩
  | cons first rest =>
      rw [htokens, if_neg (List.cons_ne_nil first rest)] at hdenoted
      obtain ⟨body, hbody⟩ := hdenoted _ (List.mem_singleton_self _)
      have hcolon : ':' ∉ first := by
        rcases hbody.name with rfl | ⟨op, rfl⟩
        · decide
        · cases op <;> decide
      exact ⟨if_neg hcolon, if_neg hcolon⟩

/-- A label can go on a line of its own. -/
theorem agree_detach {lead name gap raw : Text} (hlead : IsGap lead) (hname : IsName name)
    (hgap : IsGap gap)
    (hdenoted : ∀ statement ∈ statements [lead ++ (name ++ ':' :: raw)],
      ∃ body, Denotes statement body) :
    Agree [lead ++ (name ++ ':' :: raw)] [lead ++ (name ++ ':' :: gap), raw] := by
  obtain ⟨hlabel, hstatement⟩ := parts_definition hlead hname raw
  obtain ⟨hown, hidle⟩ := parts_definition hlead hname gap
  obtain ⟨hnone, hsame⟩ := parts_behind hlead hname hdenoted
  rw [tokens_gap hgap] at hidle
  refine ⟨?_, fun k => ?_⟩
  · rw [statements_cons, statements_singleton, statements_singleton, statements_singleton, hidle,
      hsame, hstatement]
    rfl
  · simp [bindings, hlabel, hown, hnone]

/-- A label can go further down while there are no statements. -/
theorem agree_lower {lead name gap raw : Text} {idle : List Text} (hlead : IsGap lead)
    (hname : IsName name) (hgap : IsGap gap) (hidle : statements (raw :: idle) = [])
    (hdenoted : ∀ statement ∈ statements [lead ++ (name ++ ':' :: raw)],
      ∃ body, Denotes statement body) :
    Agree ((lead ++ (name ++ ':' :: raw)) :: idle)
      ((lead ++ raw) :: (idle ++ [name ++ ':' :: gap])) := by
  obtain ⟨hlabel, hstatement⟩ := parts_definition hlead hname raw
  obtain ⟨hown, hnothing⟩ := parts_definition isGap_nil hname gap
  rw [List.nil_append, tokens_gap hgap] at hnothing
  rw [List.nil_append] at hown
  rw [statements_cons, List.append_eq_nil_iff, statements_singleton] at hidle
  have hraw : tokens raw = [] := by
    rw [← (parts_behind hlead hname hdenoted).2]
    by_contra hsome
    rw [if_neg hsome] at hidle
    exact absurd hidle.1 (List.cons_ne_nil _ _)
  rw [hraw] at hstatement
  -- the label changes lines, its new line changes places, and blanks are left of the old one
  have hline : Agree [lead ++ (name ++ ':' :: raw)] [name ++ ':' :: gap] :=
    .of_line (hown.trans hlabel.symm) (hnothing.trans hstatement.symm)
  have hswap : Agree ([name ++ ':' :: gap] ++ idle) (idle ++ [name ++ ':' :: gap]) := by
    refine .swap ?_ hidle.2
    rw [statements_singleton, if_pos hnothing]
  have hnew : Agree [] [lead ++ raw] := .of_nil (by rw [tokens_gap_append hlead, hraw])
  exact ((hline.append (.refl idle)).trans hswap).trans (hnew.append (.refl _))

/-- Statements of one part of the lines denote something if all do. -/
theorem denoted_part {above raws below : List Text}
    (h : ∀ statement ∈ statements (above ++ (raws ++ below)), ∃ body, Denotes statement body) :
    ∀ statement ∈ statements raws, ∃ body, Denotes statement body := by
  intro statement hmem
  refine h statement ?_
  rw [statements_append, statements_append]
  exact List.mem_append_right _ (List.mem_append_left _ hmem)

theorem IsGap.not_mem {gap : Text} (h : IsGap gap) : '\n' ∉ gap := fun hmem => (h _ hmem).2 rfl

theorem IsName.not_mem {name : Text} (h : IsName name) : '\n' ∉ name := by
  intro hmem
  have hvisible := h.visible _ hmem
  revert hvisible
  decide

/-- The line on which a label is defined. -/
theorem pieces_definition {lead name rest piece : Text} {more : List Text} (hlead : IsGap lead)
    (hname : IsName name) (h : Text.pieces rest = piece :: more) :
    Text.pieces (lead ++ (name ++ ':' :: rest)) = (lead ++ (name ++ ':' :: piece)) :: more := by
  have hcolon : '\n' ∉ [':'] := by decide
  refine Text.pieces_append_of_not_mem hlead.not_mem ?_
  refine Text.pieces_append_of_not_mem hname.not_mem ?_
  exact Text.pieces_append_of_not_mem hcolon h

/-- **A change of the layout** leaves lines that agree, if the statements denote something. -/
theorem Relayout.agree {t t' : Text} (h : Relayout t t')
    (hdenoted : ∀ statement ∈ statements (Text.pieces t), ∃ body, Denotes statement body) :
    Agree (Text.pieces t) (Text.pieces t') := by
  cases h with
  | returns =>
      refine .of_forall₂ ((pieces_returns t).imp ?_)
      rintro raw raw' (rfl | rfl)
      · rfl
      · exact tokens_append_gap_nil isGap_return raw
  | line habove hbelow hraw hraw' h =>
      obtain ⟨ps, hps⟩ := pieces_above habove
      obtain ⟨qs, hqs⟩ := pieces_below hbelow
      rw [hps, hps, hqs _ hraw, hqs _ hraw']
      exact .frame ps qs h.agree
  | insert habove hidle hcode rest =>
      obtain ⟨ps, hps⟩ := pieces_above habove
      rw [hps, hps, Text.pieces_append_feed, Text.pieces_of_not_mem hidle]
      exact .frame ps (Text.pieces rest) (.of_nil (tokens_of_gap hcode))
  | append hidle hcode =>
      rw [Text.pieces_append_feed, Text.pieces_of_not_mem hidle]
      have hnil := (Agree.refl (Text.pieces t)).append (Agree.of_nil (tokens_of_gap hcode))
      rwa [List.append_nil] at hnil
  | @detach above lead name gap habove hlead hname hgap rest =>
      obtain ⟨ps, hps⟩ := pieces_above habove
      obtain ⟨raw, below, hrest⟩ := List.exists_cons_of_ne_nil (Text.pieces_ne_nil rest)
      have hsplit : Text.pieces (gap ++ '\n' :: rest) = gap :: raw :: below := by
        rw [Text.pieces_append_feed, Text.pieces_of_not_mem hgap.not_mem, hrest]
        rfl
      rw [hps, pieces_definition hlead hname hrest] at hdenoted ⊢
      rw [hps, pieces_definition hlead hname hsplit]
      exact .frame ps below (agree_detach hlead hname hgap (denoted_part hdenoted))
  | @lower above lead name gap idle habove hlead hname hgap hidle below =>
      obtain ⟨ps, hps⟩ := pieces_above habove
      obtain ⟨raw, more, hraw⟩ := List.exists_cons_of_ne_nil (Text.pieces_ne_nil idle)
      have hold : Text.pieces (idle ++ '\n' :: below) = raw :: (more ++ Text.pieces below) := by
        rw [Text.pieces_append_feed, hraw, List.cons_append]
      have hown : Text.pieces (name ++ ':' :: (gap ++ '\n' :: below)) =
          (name ++ ':' :: gap) :: Text.pieces below := by
        have hsplit : Text.pieces (gap ++ '\n' :: below) = gap :: Text.pieces below := by
          rw [Text.pieces_append_feed, Text.pieces_of_not_mem hgap.not_mem]
          rfl
        exact pieces_definition isGap_nil hname hsplit
      have hnew : Text.pieces (idle ++ '\n' :: (name ++ ':' :: (gap ++ '\n' :: below))) =
          raw :: (more ++ (name ++ ':' :: gap) :: Text.pieces below) := by
        rw [Text.pieces_append_feed, hraw, hown, List.cons_append]
      rw [hraw] at hidle
      rw [hps, pieces_definition hlead hname hold] at hdenoted ⊢
      rw [hps, Text.pieces_append_of_not_mem hlead.not_mem hnew]
      have hlower := agree_lower hlead hname hgap hidle (denoted_part hdenoted)
      have hframe := Agree.frame ps (Text.pieces below) hlower
      simpa using hframe

/-! ## Programs in another layout -/

/-- The programs have the same words and the same label table. -/
structure Program.Same (p p' : Program) : Prop where
  words : p'.words = p.words
  labels : ∀ label, p'.labels.lookup label = p.labels.lookup label

protected theorem Program.Same.refl (p : Program) : p.Same p := ⟨rfl, fun _ => rfl⟩

protected theorem Program.Same.trans {p p' p'' : Program} (h : p.Same p') (h' : p'.Same p'') :
    p.Same p'' :=
  ⟨h'.words.trans h.words, fun label => (h'.labels label).trans (h.labels label)⟩

/-- One change of the layout. -/
theorem assemble_relayout {t t' : Text} {p : Program} (h : Relayout t t')
    (hp : assemble (.text t) = .ok p) : ∃ p', assemble (.text t') = .ok p' ∧ p.Same p' := by
  obtain ⟨a, ha, rfl⟩ := assemble_text_eq_ok_iff.mp hp
  have hdenoted := (reads_of_ofText ha).1.denoted
  rw [← (agree_pieces t).statements_eq] at hdenoted
  have hagree := ((agree_pieces t).trans (h.agree hdenoted)).trans (agree_pieces t').symm
  obtain ⟨a', ha', hwords, hlabels⟩ := ofText_of_agree hagree ha
  refine ⟨a'.program, assemble_text_eq_ok_iff.mpr ⟨a', ha', rfl⟩, ?_, hlabels⟩
  rw [Assembler.program, Assembler.program, hwords]

/-- Any number of changes. -/
theorem assemble_relayouts {t t' : Text} {p : Program} (h : Relation.ReflTransGen Relayout t t')
    (hp : assemble (.text t) = .ok p) : ∃ p', assemble (.text t') = .ok p' ∧ p.Same p' := by
  induction h with
  | refl => exact ⟨p, hp, .refl p⟩
  | tail _ hlast ih =>
      obtain ⟨p', hp', hsame⟩ := ih
      obtain ⟨p'', hp'', hsame'⟩ := assemble_relayout hlast hp'
      exact ⟨p'', hp'', hsame.trans hsame'⟩

/-- **The layout of a program does not matter**: in any other layout it has the same words and
the same label table. The way back need not lead to a program. -/
theorem assemble_layout :
    (∀ (source source' : Source) (t t' : Text) (p : Program), source.decode = .ok t →
      source'.decode = .ok t' → Relation.ReflTransGen Relayout t t' → assemble source = .ok p →
      ∃ p', assemble source' = .ok p' ∧ p.Same p') ∧
    ∃ t t', Relayout t t' ∧ (∃ p, assemble (.text t') = .ok p) ∧
      ∀ p, assemble (.text t) ≠ .ok p := by
  refine ⟨?_, ?_⟩
  · intro source source' t t' p ht ht' h hp
    rw [assemble_of_decode ht] at hp
    rw [assemble_of_decode ht']
    exact assemble_relayouts h hp
  · refine ⟨"a: b: nop".toList, "a:\n b: nop".toList, ?_, ⟨⟨[0xb000], _⟩, rfl⟩, nofun⟩
    have hname : IsName ['a'] := isName_of_all (by decide) (by decide) (by decide)
    exact @Relayout.detach [] [] ['a'] [] (.inl rfl) isGap_nil hname isGap_nil " b: nop".toList

/-- A label moves to its own line, a line separator comes between two tokens, and every line
feed gets a carriage return. -/
theorem assemble_layout_spread :
    let t := "loop: jmp loop\nhalt".toList
    let t' := "loop:\r\n jmp\u2028loop\r\nhalt".toList
    assemble (.text t) = .ok ⟨[0xc000, 0x0000], [("loop".toList, 0)]⟩ ∧
      Relation.ReflTransGen Relayout t t' ∧
      ∃ p', assemble (.text t') = .ok p' ∧
        Program.Same ⟨[0xc000, 0x0000], [("loop".toList, 0)]⟩ p' := by
  have hprogram : assemble (.text "loop: jmp loop\nhalt".toList) =
      .ok ⟨[0xc000, 0x0000], [("loop".toList, 0)]⟩ := by rfl
  have hname : IsName "loop".toList := isName_of_all (by decide) (by decide) (by decide)
  have hdetach : Relayout "loop: jmp loop\nhalt".toList "loop:\n jmp loop\nhalt".toList :=
    @Relayout.detach [] [] "loop".toList [] (.inl rfl) isGap_nil hname isGap_nil
      " jmp loop\nhalt".toList
  have hspace : IsGap [' '] := by simp [IsGap, isBlank]
  have hseparator : IsGap ['\u2028'] := by simp [IsGap, isBlank]
  have hspread : Reline (" jmp".toList ++ ([' '] ++ "loop".toList))
      (" jmp".toList ++ (['\u2028'] ++ "loop".toList)) :=
    .between hspace hseparator (by simp) (by simp) _ _
  have hbetween : Relayout "loop:\n jmp loop\nhalt".toList
      "loop:\n jmp\u2028loop\nhalt".toList :=
    @Relayout.line "loop:\n".toList "\nhalt".toList _ _ (.inr rfl) (.inr rfl) (by decide)
      (by decide) hspread
  have hreturns : Relayout "loop:\n jmp\u2028loop\nhalt".toList
      "loop:\r\n jmp\u2028loop\r\nhalt".toList := .returns _
  have hchain := ((Relation.ReflTransGen.single hdetach).tail hbetween).tail hreturns
  exact ⟨hprogram, hchain, assemble_layout.1 _ _ _ _ _ rfl rfl hchain hprogram⟩

end IttyBitty.Assembly
