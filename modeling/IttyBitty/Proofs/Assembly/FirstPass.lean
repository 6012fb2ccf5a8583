import IttyBitty.Proofs.Assembly.Grammar

/-!
# The first pass

Reading lines comes through exactly if the labels are named, new and different,
every statement denotes something, and there are not too many. It then has
bound each label to the number of statements above it and has collected what
the statements denote, in order. Both are shown line by line for an assembler
that has read something already.
-/

namespace IttyBitty.Assembly

/-! ## Lines one after another -/

theorem statements_cons (raw : Text) (rest : List Text) :
    statements (raw :: rest) = statements [raw] ++ statements rest := by
  simp only [statements, List.map_cons, List.map_nil, ← List.filter_append,
    List.singleton_append]

theorem statements_singleton (raw : Text) :
    statements [raw] = if statementOf raw = [] then [] else [statementOf raw] := by
  by_cases h : statementOf raw = [] <;> simp [statements, h]

theorem labels_cons (raw : Text) (rest : List Text) :
    labels (raw :: rest) = labels [raw] ++ labels rest := by
  cases h : labelOf raw <;> simp [labels, h]

theorem labels_singleton (raw : Text) : labels [raw] = (labelOf raw).toList := by
  cases h : labelOf raw <;> simp [labels, h]

/-- The labels of some lines with the indices that they are bound to, if there are
`k` statements above the lines. -/
def bindings (k : Nat) : List Text → Labels
  | [] => []
  | raw :: rest =>
    (labelOf raw).toList.map (fun label => (label, k)) ++
      bindings (k + (statements [raw]).length) rest

theorem map_fst_bindings (k : Nat) (raws : List Text) :
    (bindings k raws).map Prod.fst = labels raws := by
  induction raws generalizing k with
  | nil => rfl
  | cons raw rest ih =>
      rw [bindings, List.map_append, ih, labels_cons, labels_singleton]
      cases labelOf raw <;> rfl

theorem mem_bindings_iff {k : Nat} {raws : List Text} {label : Text} {index : Nat} :
    (label, index) ∈ bindings k raws ↔
      ∃ above raw below, raws = above ++ raw :: below ∧ labelOf raw = some label ∧
        index = k + (statements above).length := by
  induction raws generalizing k with
  | nil => simp [bindings]
  | cons raw rest ih =>
      rw [bindings, List.mem_append, ih]
      constructor
      · rintro (h | ⟨above, raw', below, rfl, hlabel, rfl⟩)
        · -- a label of the first line has nothing above it but the `k` statements
          have hlabel : labelOf raw = some label ∧ k = index := by simpa using h
          exact ⟨[], raw, rest, rfl, hlabel.1, hlabel.2.symm⟩
        · refine ⟨raw :: above, raw', below, rfl, hlabel, ?_⟩
          rw [statements_cons raw above, List.length_append, Nat.add_assoc]
      · rintro ⟨above, raw', below, hraws, hlabel, rfl⟩
        cases above with
        | nil =>
            obtain ⟨rfl, rfl⟩ := List.cons.inj hraws
            exact .inl (by simp [hlabel, statements])
        | cons raw'' above =>
            obtain ⟨rfl, rfl⟩ := List.cons.inj hraws
            refine .inr ⟨above, raw', below, rfl, hlabel, ?_⟩
            rw [statements_cons raw above, List.length_append, Nat.add_assoc]

theorem mem_bindings_zero_iff {raws : List Text} {label : Text} {index : Nat} :
    (label, index) ∈ bindings 0 raws ↔ Binds raws label index := by
  simp only [mem_bindings_iff, Nat.zero_add]
  rfl

/-! ## When lines can be read -/

/-- The lines can be read behind `k` statements and the labels that are bound. -/
structure Readable (bound : Labels) (k : Nat) (raws : List Text) : Prop where
  named : [] ∉ labels raws
  distinct : (labels raws).Nodup
  fresh : ∀ label ∈ labels raws, label ∉ bound.map Prod.fst
  denoted : ∀ statement ∈ statements raws, ∃ body, Denotes statement body
  few : k + (statements raws).length ≤ 65535

/-- The lines can be read one by one: each behind what the ones above it leave. -/
theorem readable_cons_iff {bound : Labels} {k : Nat} {raw : Text} {rest : List Text} :
    Readable bound k (raw :: rest) ↔
      Readable bound k [raw] ∧
        Readable ((bindings k [raw]).reverse ++ bound) (k + (statements [raw]).length) rest := by
  have hlabels : ∀ label, label ∈ ((bindings k [raw]).reverse ++ bound).map Prod.fst ↔
      label ∈ labels [raw] ∨ label ∈ bound.map Prod.fst := by
    intro label
    rw [List.map_append, List.map_reverse, map_fst_bindings, List.mem_append, List.mem_reverse]
  constructor
  · rintro ⟨hnamed, hdistinct, hfresh, hdenoted, hfew⟩
    rw [labels_cons] at hnamed hdistinct hfresh
    rw [statements_cons] at hdenoted hfew
    rw [List.length_append] at hfew
    rw [List.nodup_append] at hdistinct
    refine ⟨⟨?_, hdistinct.1, ?_, ?_, by omega⟩, ⟨?_, hdistinct.2.1, ?_, ?_, by omega⟩⟩
    · exact fun h => hnamed (List.mem_append_left _ h)
    · exact fun label h => hfresh label (List.mem_append_left _ h)
    · exact fun statement h => hdenoted statement (List.mem_append_left _ h)
    · exact fun h => hnamed (List.mem_append_right _ h)
    · -- a label further down differs from the line's own and from those above
      intro label h hbound
      rcases (hlabels label).mp hbound with hline | hbound
      · exact hdistinct.2.2 label hline label h rfl
      · exact hfresh label (List.mem_append_right _ h) hbound
    · exact fun statement h => hdenoted statement (List.mem_append_right _ h)
  · rintro ⟨hline, hrest⟩
    refine ⟨?_, ?_, ?_, ?_, ?_⟩
    · rw [labels_cons, List.mem_append]
      exact not_or.mpr ⟨hline.named, hrest.named⟩
    · rw [labels_cons, List.nodup_append]
      refine ⟨hline.distinct, hrest.distinct, ?_⟩
      rintro label h label' h' rfl
      exact hrest.fresh label h' ((hlabels label).mpr (.inl h))
    · intro label h
      rw [labels_cons, List.mem_append] at h
      rcases h with h | h
      · exact hline.fresh label h
      · exact fun hbound => hrest.fresh label h ((hlabels label).mpr (.inr hbound))
    · intro statement h
      rw [statements_cons, List.mem_append] at h
      rcases h with h | h
      · exact hline.denoted statement h
      · exact hrest.denoted statement h
    · have hfew := hrest.few
      rw [statements_cons, List.length_append]
      omega

/-! ## What reading leaves -/

/-- One assembler is the other after some lines have been read. -/
structure Reads (a : Assembler) (raws : List Text) (a' : Assembler) : Prop where
  labels : a'.labels = (bindings a.statements.size raws).reverse ++ a.labels
  statements : ∃ bodies, List.Forall₂ Denotes (statements raws) bodies ∧
    a'.statements.toList.map Statement.body = a.statements.toList.map Statement.body ++ bodies

theorem Reads.size {a a' : Assembler} {raws : List Text} (h : Reads a raws a') :
    a'.statements.size = a.statements.size + (Assembly.statements raws).length := by
  obtain ⟨bodies, hbodies, hstatements⟩ := h.statements
  have hlength := congrArg List.length hstatements
  simpa [hbodies.length_eq] using hlength

theorem Reads.nil (a : Assembler) : Reads a [] a :=
  ⟨rfl, [], .nil, (List.append_nil _).symm⟩

theorem Reads.cons {a a' a'' : Assembler} {raw : Text} {rest : List Text}
    (h : Reads a [raw] a') (hrest : Reads a' rest a'') : Reads a (raw :: rest) a'' := by
  obtain ⟨bodies, hbodies, hstatements⟩ := h.statements
  obtain ⟨bodies', hbodies', hstatements'⟩ := hrest.statements
  refine ⟨?_, bodies ++ bodies', ?_, ?_⟩
  · rw [hrest.labels, h.labels, h.size]
    simp [bindings]
  · rw [statements_cons]
    exact List.rel_append hbodies hbodies'
  · rw [hstatements', hstatements, List.append_assoc]

/-! ## The assembler on lines -/

variable {a : Assembler} (number : Nat) (raw : Text)

/-- Reading the tokens of a statement. -/
theorem readTokens_spec (hsize : a.statements.size ≤ 65535) (statement : List Text) :
    ((a.readTokens number raw statement).2 = none ↔
      statement = [] ∨ a.statements.size < 65535 ∧ ∃ body, Denotes statement body) ∧
    ((a.readTokens number raw statement).2 = none →
      (a.readTokens number raw statement).1.labels = a.labels ∧
      ∃ bodies, List.Forall₂ Denotes (if statement = [] then [] else [statement]) bodies ∧
        (a.readTokens number raw statement).1.statements.toList.map Statement.body
          = a.statements.toList.map Statement.body ++ bodies) := by
  cases statement with
  | nil => simp [Assembler.readTokens, Assembler.addLine]
  | cons mnemonic operands =>
      rw [Assembler.readTokens]
      by_cases hfew : maxStatements ≤ a.statements.size
      · have hfew' : ¬ a.statements.size < 65535 := by unfold maxStatements at hfew; omega
        simp [hfew, hfew']
      · have hfew' : a.statements.size < 65535 := by unfold maxStatements at hfew; omega
        rw [if_neg hfew]
        cases hbody : Body.ofTokens mnemonic operands with
        | error problem =>
            have hnone : ¬ ∃ body, Denotes (mnemonic :: operands) body := by
              rintro ⟨body, h⟩
              rw [ofTokens_eq_ok_iff.mpr h] at hbody
              cases hbody
            simp [hnone]
        | ok body =>
            have hdenotes := ofTokens_eq_ok_iff.mp hbody
            refine ⟨⟨fun _ => .inr ⟨hfew', body, hdenotes⟩, fun _ => rfl⟩,
              fun _ => ⟨rfl, [body], ?_, ?_⟩⟩
            · simpa using hdenotes
            · simp [Assembler.addStatement]

/-- The assembler with the label of a line bound. -/
def bound (a : Assembler) (label : Option Text) : Assembler :=
  { a with labels := label.toList.map (fun label => (label, a.statements.size)) ++ a.labels }

theorem bindLabel_eq (a : Assembler) (label : Option Text) :
    (∃ name, label = some name ∧ name ∈ a.labels.map Prod.fst ∧
      a.bindLabel label = .error (.duplicateLabel name)) ∨
    ((∀ name, label = some name → name ∉ a.labels.map Prod.fst) ∧
      a.bindLabel label = .ok (bound a label)) := by
  cases label with
  | none => exact .inr ⟨nofun, rfl⟩
  | some name =>
      have hlookup : (a.labels.lookup name).isSome = true ↔ name ∈ a.labels.map Prod.fst := by
        rw [List.lookup_isSome_iff, List.mem_map]
        simp only [beq_iff_eq, eq_comm (a := name)]
      rw [Assembler.bindLabel]
      by_cases hname : name ∈ a.labels.map Prod.fst
      · rw [if_pos (hlookup.mpr hname)]
        exact .inl ⟨name, rfl, hname, rfl⟩
      · rw [if_neg (mt hlookup.mp hname)]
        refine .inr ⟨?_, rfl⟩
        rintro name' ⟨⟩
        exact hname

theorem readable_singleton_iff {bound : Labels} {k : Nat} (hk : k ≤ 65535) :
    Readable bound k [raw] ↔
      labelOf raw ≠ some [] ∧
      (∀ name, labelOf raw = some name → name ∉ bound.map Prod.fst) ∧
      (statementOf raw = [] ∨ k < 65535 ∧ ∃ body, Denotes (statementOf raw) body) := by
  constructor
  · intro h
    refine ⟨?_, ?_, ?_⟩
    · intro hlabel
      exact h.named (by simp [labels_singleton, hlabel])
    · intro name hname
      exact h.fresh name (by simp [labels_singleton, hname])
    · by_cases hstatement : statementOf raw = []
      · exact .inl hstatement
      · have hsingle : statements [raw] = [statementOf raw] := by
          rw [statements_singleton, if_neg hstatement]
        have hfew := h.few
        rw [hsingle, List.length_singleton] at hfew
        exact .inr ⟨by omega, h.denoted _ (by rw [hsingle]; exact List.mem_singleton_self _)⟩
  · rintro ⟨hnamed, hfresh, hstatement⟩
    refine ⟨?_, ?_, ?_, ?_, ?_⟩
    · rw [labels_singleton]
      simpa [eq_comm] using hnamed
    · rw [labels_singleton]
      cases labelOf raw <;> simp
    · intro name hname
      rw [labels_singleton] at hname
      exact hfresh name (by simpa using hname)
    · intro statement hmem
      rw [statements_singleton] at hmem
      by_cases hnil : statementOf raw = []
      · simp [hnil] at hmem
      · rw [if_neg hnil, List.mem_singleton] at hmem
        rcases hstatement with h | ⟨-, hbody⟩
        · exact absurd h hnil
        · rwa [hmem]
    · rw [statements_singleton]
      rcases hstatement with h | ⟨hlt, -⟩
      · rw [if_pos h]
        exact hk
      · by_cases hnil : statementOf raw = []
        · rw [if_pos hnil]
          exact hk
        · rw [if_neg hnil, List.length_singleton]
          omega

/-- **Reading a line** comes through exactly if the line can be read, and then
leaves its label and its statement. -/
theorem readLine_spec (hsize : a.statements.size ≤ 65535) :
    ((a.readLine number raw).2 = none ↔ Readable a.labels a.statements.size [raw]) ∧
      ((a.readLine number raw).2 = none → Reads a [raw] (a.readLine number raw).1) := by
  rw [readable_singleton_iff raw hsize, Assembler.readLine, parse?_eq]
  by_cases hnamed : labelOf raw = some []
  · rw [if_pos hnamed]
    exact ⟨⟨nofun, fun h => absurd hnamed h.1⟩, nofun⟩
  · rw [if_neg hnamed]
    rcases bindLabel_eq a (labelOf raw) with ⟨name, hname, hmem, hbind⟩ | ⟨hfresh, hbind⟩
    · simp only [hbind]
      exact ⟨⟨nofun, fun h => absurd hmem (h.2.1 name hname)⟩, nofun⟩
    · simp only [hbind]
      obtain ⟨hiff, hleaves⟩ := readTokens_spec (a := bound a (labelOf raw)) number raw
        hsize (statementOf raw)
      refine ⟨⟨fun h => ⟨hnamed, hfresh, hiff.mp h⟩, fun h => hiff.mpr h.2.2⟩, fun h => ?_⟩
      obtain ⟨hlabels, bodies, hbodies, hstatements⟩ := hleaves h
      refine ⟨?_, bodies, by rwa [statements_singleton], hstatements⟩
      rw [hlabels]
      cases hlabel : labelOf raw <;> simp [bound, bindings, hlabel]

/-- **Reading lines** comes through exactly if they can be read, and then leaves
their labels and their statements. -/
theorem readLines_spec (hsize : a.statements.size ≤ 65535) (raws : List Text) :
    ((a.readLines number raws).2 = none ↔ Readable a.labels a.statements.size raws) ∧
      ((a.readLines number raws).2 = none → Reads a raws (a.readLines number raws).1) := by
  induction raws generalizing a number with
  | nil =>
      refine ⟨⟨fun _ => ⟨?_, ?_, ?_, ?_, ?_⟩, fun _ => rfl⟩, fun _ => .nil a⟩
      all_goals simp [labels, statements, hsize]
  | cons raw rest ih =>
      obtain ⟨hiff, hreads⟩ := readLine_spec number raw hsize
      rw [Assembler.readLines, readable_cons_iff]
      rcases hline : a.readLine number raw with ⟨a', _ | error⟩
      · -- the other lines are read behind what the first one leaves
        rw [hline] at hiff hreads
        have hread := hreads rfl
        have hreadable := hiff.mp rfl
        have hfew := hreadable.few
        obtain ⟨hiff', hreads'⟩ := ih (a := a') (number + 1) (by rw [hread.size]; exact hfew)
        rw [hread.labels, hread.size] at hiff'
        exact ⟨⟨fun h => ⟨hreadable, hiff'.mp h⟩, fun h => hiff'.mpr h.2⟩,
          fun h => hread.cons (hreads' h)⟩
      · rw [hline] at hiff
        exact ⟨⟨nofun, fun h => nomatch hiff.mpr h.1⟩, nofun⟩

end IttyBitty.Assembly
