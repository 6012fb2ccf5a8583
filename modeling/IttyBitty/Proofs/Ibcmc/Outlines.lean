import IttyBitty.Proofs.Ibcmc.Labels

/-!
# Outlines are unambiguous

An outline has a row for every statement, in front of the rows of those that it holds,
and these are deeper. So the rows say which statement holds which, and as each line
tells its row, the text of an outline tells the whole tree but the lines of its blocks
(`outline_unambiguous`).
-/

namespace IttyBitty.Ibcmc

/-! ## Rows -/

mutual

/-- The rows of what a statement holds, each with its depth. -/
def Stmt.heldRows (depth : Nat) : Stmt → List (Nat × Stmt)
  | .block body _ => rowsAll (depth + 1) body
  | .function _ _ body bodyLine _ => (depth + 1, .block body bodyLine) :: rowsAll (depth + 2) body
  | _ => []

/-- The rows of some statements, each in front of those of what it holds. -/
def rowsAll (depth : Nat) : List Stmt → List (Nat × Stmt)
  | [] => []
  | s :: body => (depth, s) :: (s.heldRows depth ++ rowsAll depth body)

end

/-- The line of a row. -/
def rowText (row : Nat × Stmt) : String := margin row.1 ++ row.2.label

/-- What the line of a row shows. -/
def shownRow (row : Nat × Stmt) : Nat × Stmt := (row.1, row.2.shown)

theorem Stmt.label_block (body : List Stmt) (line : Int) : (Stmt.block body line).label = "Block" :=
  rfl

mutual

theorem Stmt.outlineFrom_eq (depth : Nat) (done : Array String) (s : Stmt) :
    (Stmt.outlineFrom depth done s).toList =
      done.toList ++ rowText (depth, s) :: (s.heldRows depth).map rowText := by
  cases s with
  | block body line =>
      have hbody := Stmt.outlinesFrom_eq (depth + 1)
        (done.push (margin depth ++ (Stmt.block body line).label)) body
      rw [Stmt.outlineFrom, Stmt.heldRows]
      simpa [rowText] using hbody
  | function d params body bodyLine line =>
      have hbody := Stmt.outlinesFrom_eq (depth + 2)
        ((done.push (margin depth ++ (Stmt.function d params body bodyLine line).label)).push
          (margin (depth + 1) ++ "Block")) body
      rw [Stmt.outlineFrom, Stmt.heldRows]
      simpa [rowText, Stmt.label_block] using hbody
  | _ => simp [Stmt.outlineFrom, Stmt.heldRows, rowText]

theorem Stmt.outlinesFrom_eq (depth : Nat) (done : Array String) (body : List Stmt) :
    (Stmt.outlinesFrom depth done body).toList =
      done.toList ++ (rowsAll depth body).map rowText := by
  cases body with
  | nil => simp [Stmt.outlinesFrom, rowsAll]
  | cons s body =>
      rw [Stmt.outlinesFrom, Stmt.outlinesFrom_eq depth _ body, Stmt.outlineFrom_eq depth done s,
        rowsAll, List.map_cons, List.map_append, List.append_assoc, List.cons_append]

end

/-- The rows of a program. -/
def Block.rows (b : Block) (depth : Nat) : List (Nat × Stmt) :=
  (depth, .block b.body b.line) :: rowsAll (depth + 1) b.body

/-- An outline is its rows, line by line. -/
theorem Block.toList_outline (b : Block) (depth : Nat) :
    (b.outline depth).toList =
      ['\n'].intercalate ((b.rows depth).map fun row => (rowText row).toList) := by
  rw [outline, outlineLines, Stmt.outlineFrom_eq, String.toList_intercalate, List.nil_append,
    ← List.map_cons, List.map_map]
  rfl

/-! ## Rows that are told -/

/-- A statement that holds plain statements is plain. -/
theorem PlainAll.block {body : List Stmt} (h : PlainAll body) (line : Int) :
    (Stmt.block body line).Plain := by
  intro word hword
  rw [Stmt.flatten, List.mem_cons, List.mem_append, List.mem_singleton] at hword
  rcases hword with rfl | hword | rfl
  · trivial
  · exact h word hword
  · trivial

mutual

theorem Stmt.Plain.heldRows {depth : Nat} {s : Stmt} (h : s.Plain) :
    ∀ row ∈ s.heldRows depth, row.2.Plain := by
  have hparts := h.parts
  cases s with
  | block body line => exact PlainAll.rows hparts
  | function d params body bodyLine line =>
      obtain ⟨-, -, hbody⟩ := hparts
      rw [Stmt.heldRows, List.forall_mem_cons]
      exact ⟨hbody.block bodyLine, PlainAll.rows hbody⟩
  | _ => exact fun row hrow => absurd hrow List.not_mem_nil

theorem PlainAll.rows {depth : Nat} {body : List Stmt} (h : PlainAll body) :
    ∀ row ∈ rowsAll depth body, row.2.Plain := by
  cases body with
  | nil => exact fun row hrow => absurd hrow List.not_mem_nil
  | cons s body =>
      obtain ⟨hs, hbody⟩ := List.forall_mem_append.mp h
      rw [rowsAll, List.forall_mem_cons, List.forall_mem_append]
      exact ⟨hs, Stmt.Plain.heldRows hs, PlainAll.rows hbody⟩

end

theorem Stmt.stops_label (s : Stmt) (rest : Text) : Stops (· == ' ') (s.label.toList ++ rest) := by
  rw [toList_label]
  cases s <;> rw [tag] <;> exact fun _ hc => Option.mem_some.mp hc ▸ rfl

theorem tells_rows : Tells (fun row : Nat × Stmt => row.2.Plain) (fun row => (rowText row).toList)
    shownRow := by
  rintro ⟨depth, s⟩ ⟨depth', s'⟩ rest rest' hs hs' hend hend' h
  simp only [rowText, margin, String.toList_append, String.toList_ofList, Int.toNat_natCast,
    List.append_assoc] at h
  have hspaces (n : Nat) : ∀ c ∈ List.replicate n ' ', (c == ' ') = true :=
    fun c hc => beq_iff_eq.mpr (List.eq_of_mem_replicate hc)
  obtain ⟨hmargin, hlabel⟩ := run_append_inj (hspaces _) (hspaces _) (s.stops_label rest)
    (s'.stops_label rest') h
  have hlength := congrArg List.length hmargin
  rw [List.length_replicate, List.length_replicate] at hlength
  obtain rfl : depth = depth' := by omega
  obtain ⟨hshown, hrest⟩ := tells_labels hs hs' hend hend' hlabel
  exact ⟨congrArg (Prod.mk depth) hshown, hrest⟩

/-! ## Trees from rows -/

mutual

/-- A statement without the lines of blocks. -/
def Stmt.unmarked : Stmt → Stmt
  | .block body _ => .block (unmarkedAll body) 0
  | .function d params body _ line => .function d params (unmarkedAll body) 0 line
  | .assign name value line => .assign name value line
  | .compound name op value line => .compound name op value line
  | .decl d line => .decl d line
  | .init d value line => .init d value line
  | .expr value line => .expr value line
  | .empty line => .empty line

/-- Statements without the lines of blocks. -/
def unmarkedAll : List Stmt → List Stmt
  | [] => []
  | s :: body => s.unmarked :: unmarkedAll body

end

/-- A program without the lines of its blocks and its own. -/
def Block.unmarked (b : Block) : Block := ⟨unmarkedAll b.body, 0⟩

/-- What follows starts at a depth below this one. -/
def Leaves (depth : Nat) (rest : List (Nat × Stmt)) : Prop := ∀ row ∈ rest.head?, row.1 < depth

theorem Leaves.mono {depth depth' : Nat} {rest : List (Nat × Stmt)} (h : Leaves depth rest)
    (hdepth : depth ≤ depth') : Leaves depth' rest :=
  fun row hrow => Nat.lt_of_lt_of_le (h row hrow) hdepth

/-- Behind a statement stands what is no deeper. -/
theorem leaves_rowsAll {depth : Nat} {body : List Stmt} {rest : List (Nat × Stmt)}
    (h : Leaves depth rest) :
    Leaves (depth + 1) ((rowsAll depth body).map shownRow ++ rest) := by
  cases body with
  | nil => exact h.mono (Nat.le_succ depth)
  | cons s body =>
      intro row hrow
      obtain rfl := Option.mem_some.mp hrow
      exact Nat.lt_succ_self depth

/-- Nothing that leaves a depth starts with a statement of it. -/
theorem Leaves.ne_rowsAll {depth : Nat} {s : Stmt} {body : List Stmt}
    {rest rest' : List (Nat × Stmt)} (h : Leaves depth rest) :
    rest ≠ (rowsAll depth (s :: body)).map shownRow ++ rest' := by
  rintro rfl
  exact Nat.lt_irrefl depth (h (depth, s.shown) rfl)

mutual

theorem Stmt.unmarked_of_rows {depth : Nat} {s s' : Stmt} {rest rest' : List (Nat × Stmt)}
    (hrest : Leaves (depth + 1) rest) (hrest' : Leaves (depth + 1) rest')
    (hshown : s.shown = s'.shown)
    (h : (s.heldRows depth).map shownRow ++ rest = (s'.heldRows depth).map shownRow ++ rest') :
    s.unmarked = s'.unmarked ∧ rest = rest' := by
  cases s <;> cases s' <;> simp only [Stmt.shown, reduceCtorEq] at hshown
  case block.block =>
    obtain ⟨hbody, hrest⟩ := unmarkedAll_of_rows hrest hrest' h
    exact ⟨by rw [Stmt.unmarked, Stmt.unmarked, hbody], hrest⟩
  case function.function =>
    cases hshown
    obtain ⟨hbody, hrest⟩ := unmarkedAll_of_rows (hrest.mono (Nat.le_succ _))
      (hrest'.mono (Nat.le_succ _)) (List.cons.inj h).2
    exact ⟨by rw [Stmt.unmarked, Stmt.unmarked, hbody], hrest⟩
  -- a statement that holds no others shows all of itself
  all_goals
    cases hshown
    exact ⟨rfl, h⟩

/-- **The rows of statements tell which of them holds which.** -/
theorem unmarkedAll_of_rows {depth : Nat} {body body' : List Stmt} {rest rest' : List (Nat × Stmt)}
    (hrest : Leaves depth rest) (hrest' : Leaves depth rest')
    (h : (rowsAll depth body).map shownRow ++ rest = (rowsAll depth body').map shownRow ++ rest') :
    unmarkedAll body = unmarkedAll body' ∧ rest = rest' := by
  cases body with
  | nil =>
      cases body' with
      | nil => exact ⟨rfl, h⟩
      | cons s' body' => exact absurd h hrest.ne_rowsAll
  | cons s body =>
      cases body' with
      | nil => exact absurd h.symm hrest'.ne_rowsAll
      | cons s' body' =>
          simp only [rowsAll, List.map_cons, List.map_append, List.cons_append, List.append_assoc,
            List.cons.injEq, shownRow, Prod.mk.injEq, true_and] at h
          obtain ⟨hs, hmore⟩ :=
            Stmt.unmarked_of_rows (leaves_rowsAll hrest) (leaves_rowsAll hrest') h.1 h.2
          obtain ⟨hbody, hrest⟩ := unmarkedAll_of_rows hrest hrest' hmore
          exact ⟨by rw [unmarkedAll, unmarkedAll, hs, hbody], hrest⟩

end

/-! ## What no line shows -/

theorem Stmt.label_shown (s : Stmt) : s.shown.label = s.label := by
  cases s <;> rfl

theorem Stmt.shown_unmarked (s : Stmt) : s.unmarked.shown = s.shown := by
  cases s <;> rfl

mutual

theorem Stmt.heldRows_unmarked (depth : Nat) (s : Stmt) :
    (s.unmarked.heldRows depth).map shownRow = (s.heldRows depth).map shownRow := by
  cases s with
  | block body line => exact rowsAll_unmarked (depth + 1) body
  | function d params body bodyLine line =>
      rw [Stmt.unmarked, Stmt.heldRows, Stmt.heldRows, List.map_cons, List.map_cons,
        rowsAll_unmarked (depth + 2) body]
      rfl
  | _ => rfl

theorem rowsAll_unmarked (depth : Nat) (body : List Stmt) :
    (rowsAll depth (unmarkedAll body)).map shownRow = (rowsAll depth body).map shownRow := by
  cases body with
  | nil => rfl
  | cons s body =>
      simp only [unmarkedAll, rowsAll, List.map_cons, List.map_append]
      rw [Stmt.heldRows_unmarked depth s, rowsAll_unmarked depth body, shownRow, shownRow,
        Stmt.shown_unmarked]

end

/-- **The lines of blocks are not in an outline.** -/
theorem Block.outline_unmarked (b : Block) (depth : Nat) :
    b.unmarked.outline depth = b.outline depth := by
  have htext (rows : List (Nat × Stmt)) : rows.map (fun row => (rowText row).toList) =
      (rows.map shownRow).map fun row => (rowText row).toList := by
    rw [List.map_map]
    refine List.map_congr_left fun row _ => ?_
    rw [Function.comp_apply, rowText, rowText, shownRow, Stmt.label_shown]
  have hrows : (b.unmarked.rows depth).map shownRow = (b.rows depth).map shownRow :=
    congrArg (_ :: ·) (rowsAll_unmarked (depth + 1) b.body)
  rw [← String.toList_inj, Block.toList_outline, Block.toList_outline, htext, hrows, ← htext]

/-! ## Outlines -/

/-- The statements of a text are plain. -/
theorem plainAll_of_parse {t : Text} {b : Block} (h : parse t = .ok b) : PlainAll b.body := by
  obtain ⟨tokens, hscans, hbody, -⟩ := (parse_eq_ok_iff t b).mp h
  rw [PlainAll, hbody.flatten_eq, List.forall_mem_map]
  exact hscans.plain

/-- Outlines of plain programs that are the same are of one tree. -/
theorem PlainAll.unmarked_eq {b b' : Block} {depth : Nat} (hb : PlainAll b.body)
    (hb' : PlainAll b'.body) (h : b.outline depth = b'.outline depth) :
    b.unmarked = b'.unmarked := by
  have hplain {b : Block} (hb : PlainAll b.body) : ∀ row ∈ b.rows depth, row.2.Plain :=
    List.forall_mem_cons.mpr ⟨hb.block b.line, hb.rows⟩
  have htext := congrArg String.toList h
  rw [Block.toList_outline, Block.toList_outline, ← List.append_nil (List.intercalate _ _),
    ← List.append_nil (List.intercalate _ (List.map _ (b'.rows depth)))] at htext
  have hend : Stops isNameChar [] := nofun
  have hhead : ([] : Text).head? ≠ some '\n' := nofun
  have hfeed : isNameChar '\n' = false := rfl
  obtain ⟨hrows, -⟩ :=
    tells_rows.intercalate hfeed (hplain hb) (hplain hb') hend hend hhead hhead htext
  have hleaves : Leaves (depth + 1) [] := nofun
  obtain ⟨hbody, -⟩ := unmarkedAll_of_rows hleaves hleaves
    (congrArg (· ++ []) (List.cons.inj hrows).2)
  rw [Block.unmarked, Block.unmarked, hbody]

/-- **The outline of a text is unambiguous**: two texts have the same outline exactly
if they have the same tree but for the lines of blocks. -/
theorem outline_unambiguous {t t' : Text} {b b' : Block} (h : parse t = .ok b)
    (h' : parse t' = .ok b') (depth : Nat) :
    b.outline depth = b'.outline depth ↔ b.unmarked = b'.unmarked := by
  refine ⟨(plainAll_of_parse h).unmarked_eq (plainAll_of_parse h'), fun heq => ?_⟩
  rw [← b.outline_unmarked, heq, b'.outline_unmarked]

/-- A line feed in front of a block is not in the outline. -/
theorem outline_unambiguous_block :
    let b : Block := ⟨[.block [] 1], 1⟩
    let b' : Block := ⟨[.block [] 2], 2⟩
    parse "\x7b\x7d".toList = .ok b ∧ parse "\n\x7b\x7d".toList = .ok b' ∧
      b.outline 0 = b'.outline 0 ∧ b.unmarked = b'.unmarked := by
  intro b b'
  have htokens : tokenize "\x7b\x7d".toList = .ok [⟨.leftBrace, .text ['\x7b'], 1, 1⟩,
      ⟨.rightBrace, .text ['\x7d'], 1, 2⟩, ⟨.endOfInput, .text [], 1, 3⟩] := by
    decide +kernel
  have htokens' : tokenize "\n\x7b\x7d".toList = .ok [⟨.leftBrace, .text ['\x7b'], 2, 1⟩,
      ⟨.rightBrace, .text ['\x7d'], 2, 2⟩, ⟨.endOfInput, .text [], 2, 3⟩] := by
    decide +kernel
  have hb : parse "\x7b\x7d".toList = .ok b := by
    rw [parse, htokens]
    rfl
  have hb' : parse "\n\x7b\x7d".toList = .ok b' := by
    rw [parse, htokens']
    rfl
  exact ⟨hb, hb', (outline_unambiguous hb hb' 0).mpr rfl, rfl⟩

end IttyBitty.Ibcmc
