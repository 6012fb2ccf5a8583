import IttyBitty.Assembly.Listing
import IttyBitty.Proofs.Assembly.Layout
import IttyBitty.Proofs.Assembly.Succession
import IttyBitty.Proofs.Text.Trimming

/-!
# The listing is the program

A listing has a row for each line that is not blank, and the rows with something in the first
columns are those of the statements. Read from above, these columns hold the addresses from
zero on and the words of the program, so that the program can be read off its listing.
-/

namespace IttyBitty.Assembly

variable {a a' : Assembler} {k : Nat} {raw row : Text} {raws rows : List Text} {w : Word}
  {ws : List Word}

/-! ## Rows -/

/-- The address in a row: what stands in front of the first space. -/
def addressColumn (row : Text) : Text := row.takeWhile (· != ' ')

/-- The word in a row: four characters behind the address and three spaces. -/
def wordColumn (row : Text) : Text := ((row.dropWhile (· != ' ')).drop 3).take 4

/-- Whether a row carries an address. -/
def isPlaced (row : Text) : Bool := addressColumn row ≠ []

/-- An index as it is shown: in lower-case figures, at least three of them, with zeros in front
only to make three. -/
structure IsAddress (index : Nat) (shown : Text) : Prop where
  figures : ∀ c ∈ shown, c ∈ Hex.figures
  wide : 3 ≤ shown.length
  tight : 3 < shown.length → shown.head? ≠ some '0'
  value : Hex.number shown = index

theorem isAddress_lower (index : Nat) : IsAddress index (Hex.lower 3 index) :=
  ⟨fun _ h => Hex.mem_figures_of_mem_lower h, Hex.length_lower 3 index,
    Hex.head?_lower (by decide), Hex.number_lower 3 index⟩

theorem IsAddress.ne_nil {index : Nat} {shown : Text} (h : IsAddress index shown) :
    shown ≠ [] := by
  rintro rfl
  exact absurd h.wide (by decide)

theorem IsAddress.ne_space {index : Nat} {shown : Text} (h : IsAddress index shown) :
    ∀ c ∈ shown, (c != ' ') = true := by
  intro c hc
  rw [bne_iff_ne]
  rintro rfl
  exact absurd (h.figures ' ' hc) (by decide)

/-- A row shows a line: it ends in the line, and it carries an address and a word exactly if
the line has a statement. -/
structure IsRow (raw row : Text) : Prop where
  ends : Text.trim raw <:+ row
  placed : isPlaced row ↔ statementOf raw ≠ []
  blank : statementOf raw = [] → row = List.replicate 12 ' ' ++ Text.trim raw
  columns : statementOf raw ≠ [] → row =
    addressColumn row ++ [' ', ' ', ' '] ++ wordColumn row ++ [' ', ' '] ++ Text.trim raw

/-- The row of a line without a statement. -/
def bareRow (raw : Text) : Text := List.replicate 12 ' ' ++ Text.trim raw

/-- The row of a line whose statement has an address and a word. -/
def placedRow (index : Nat) (w : Word) (raw : Text) : Text :=
  Hex.lower 3 index ++ [' ', ' ', ' '] ++ Hex.fourFigures w.toNat ++ [' ', ' '] ++ Text.trim raw

theorem addressColumn_bareRow (raw : Text) : addressColumn (bareRow raw) = [] := rfl

theorem addressColumn_placedRow (index : Nat) (w : Word) (raw : Text) :
    addressColumn (placedRow index w raw) = Hex.lower 3 index := by
  simp only [addressColumn, placedRow, List.append_assoc]
  rw [List.takeWhile_append_of_pos (isAddress_lower index).ne_space]
  simp

theorem wordColumn_placedRow (index : Nat) (w : Word) (raw : Text) :
    wordColumn (placedRow index w raw) = Hex.fourFigures w.toNat := by
  simp only [wordColumn, placedRow, List.append_assoc]
  rw [List.dropWhile_append_of_pos (isAddress_lower index).ne_space]
  simp [Hex.fourFigures]

theorem isRow_bareRow (h : statementOf raw = []) : IsRow raw (bareRow raw) :=
  ⟨List.suffix_append _ _, by simp [isPlaced, addressColumn_bareRow, h], fun _ => rfl,
    fun hstatement => absurd h hstatement⟩

theorem isRow_placedRow (index : Nat) (w : Word) (h : statementOf raw ≠ []) :
    IsRow raw (placedRow index w raw) := by
  refine ⟨List.suffix_append _ _, ?_, fun hstatement => absurd hstatement h, fun _ => ?_⟩
  · simp [isPlaced, addressColumn_placedRow, (isAddress_lower index).ne_nil, h]
  · rw [addressColumn_placedRow, wordColumn_placedRow]
    rfl

/-! ## Listings -/

/-- The rows show the lines that are not blank, and the words of their statements from the given
address on. -/
structure IsListing (k : Nat) (raws : List Text) (ws : List Word) (rows : List Text) : Prop where
  shown : List.Forall₂ IsRow (raws.filter fun raw => Text.trim raw ≠ []) rows
  addresses : List.Forall₂ IsAddress (List.range' k ws.length)
    ((rows.filter isPlaced).map addressColumn)
  words : (rows.filter isPlaced).map wordColumn = ws.map fun w => Hex.fourFigures w.toNat

theorem IsListing.nil (k : Nat) : IsListing k [] [] [] := ⟨.nil, .nil, rfl⟩

/-- A blank line has no row. -/
theorem IsListing.skip (h : IsListing k raws ws rows) (hraw : Text.trim raw = []) :
    IsListing k (raw :: raws) ws rows := by
  refine ⟨?_, h.addresses, h.words⟩
  rw [List.filter_cons_of_neg (by simpa using hraw)]
  exact h.shown

/-- A line without a statement has blank columns. -/
theorem IsListing.bare (h : IsListing k raws ws rows) (hraw : Text.trim raw ≠ [])
    (hstatement : statementOf raw = []) : IsListing k (raw :: raws) ws (bareRow raw :: rows) := by
  have hplaced : ¬ isPlaced (bareRow raw) = true := by simp [isPlaced, addressColumn_bareRow]
  refine ⟨?_, ?_, ?_⟩
  · rw [List.filter_cons_of_pos (by simpa using hraw)]
    exact .cons (isRow_bareRow hstatement) h.shown
  · rw [List.filter_cons_of_neg hplaced]
    exact h.addresses
  · rw [List.filter_cons_of_neg hplaced]
    exact h.words

/-- A line with a statement shows its address and its word. -/
theorem IsListing.placed (h : IsListing (k + 1) raws ws rows) (hraw : Text.trim raw ≠ [])
    (hstatement : statementOf raw ≠ []) :
    IsListing k (raw :: raws) (w :: ws) (placedRow k w raw :: rows) := by
  have hplaced : isPlaced (placedRow k w raw) = true := by
    simp [isPlaced, addressColumn_placedRow, (isAddress_lower k).ne_nil]
  refine ⟨?_, ?_, ?_⟩
  · rw [List.filter_cons_of_pos (by simpa using hraw)]
    exact .cons (isRow_placedRow k w hstatement) h.shown
  · rw [List.filter_cons_of_pos hplaced, List.map_cons, addressColumn_placedRow, List.length_cons,
      List.range'_succ]
    exact .cons (isAddress_lower k) h.addresses
  · rw [List.filter_cons_of_pos hplaced, List.map_cons, wordColumn_placedRow, h.words,
      List.map_cons]

/-- **The program can be read off its listing.** -/
theorem IsListing.number_wordColumn (h : IsListing k raws ws rows) :
    (rows.filter isPlaced).map (fun row => Hex.number (wordColumn row)) =
      ws.map BitVec.toNat := by
  have hnumber : ∀ w : Word, Hex.number (Hex.fourFigures w.toNat) = w.toNat :=
    fun w => Hex.number_fourFigures w.isLt
  calc (rows.filter isPlaced).map (fun row => Hex.number (wordColumn row))
      = ((rows.filter isPlaced).map wordColumn).map Hex.number := (List.map_map ..).symm
    _ = (ws.map fun w => Hex.fourFigures w.toNat).map Hex.number := by rw [h.words]
    _ = ws.map BitVec.toNat := by simp [hnumber]

/-! ## Lines that have been read -/

/-- What is noted of some lines, if there are `k` statements above them. -/
def noted (k : Nat) : List Text → List SourceLine
  | [] => []
  | raw :: rest =>
    if statementOf raw = [] then ⟨raw, none⟩ :: noted k rest
    else ⟨raw, some k⟩ :: noted (k + 1) rest

/-- **Every line that has been read is noted**, with the index of its statement. -/
theorem lines_readLines {number : Nat} (h : a.readLines number raws = (a', none)) :
    a'.lines.toList = a.lines.toList ++ noted a.statements.size raws := by
  induction raws generalizing a number with
  | nil =>
      cases h
      exact (List.append_nil _).symm
  | cons raw rest ih =>
      rw [Assembler.readLines] at h
      rcases hline : a.readLine number raw with ⟨mid, _ | e⟩
      · rw [hline] at h
        rw [ih h, noted]
        rcases readLine_eq_none hline with ⟨hnil, rfl⟩ | ⟨body, hbody, rfl⟩
        · rw [if_pos hnil, Assembler.addLine, Array.toList_push, List.append_assoc,
            List.singleton_append]
          rfl
        · rw [if_neg hbody.ne_nil, Assembler.addStatement, Array.toList_push, Array.size_push,
            List.append_assoc, List.singleton_append]
          rfl
      · rw [hline] at h
        cases h

/-- A blank line has no statement. -/
theorem statementOf_of_trim (hfeed : '\n' ∉ raw) (h : Text.trim raw = []) :
    statementOf raw = [] := by
  have hgap : IsGap (beforeComment raw) := by
    intro c hc
    have hraw := mem_of_mem_beforeComment hc
    refine ⟨Text.trim_eq_nil_iff.mp h c hraw, ?_⟩
    rintro rfl
    exact hfeed hraw
  rw [statementOf, tokens_of_gap hgap]

theorem row_bare (a : Assembler) (raw : Text) :
    a.row ⟨raw, none⟩ =
      if Text.trim raw = [] then none else some (String.ofList (bareRow raw)) := by
  have hplaced : a.placed ⟨raw, none⟩ = none := rfl
  simp only [Assembler.row, hplaced, List.isEmpty_iff]
  rfl

theorem row_placed {index : Nat} (h : a.words[index]? = some w) (raw : Text) :
    a.row ⟨raw, some index⟩ = some (String.ofList (placedRow index w raw)) := by
  have hplaced : a.placed ⟨raw, some index⟩ = some (index, w) := by
    show (a.words[index]?.bind fun w => some (index, w)) = _
    rw [h]
    rfl
  simp only [Assembler.row, hplaced, Hex.lower_four w.isLt]
  rfl

/-- The rows of lines that have been read, if each statement has a word. -/
theorem isListing_noted (hfeed : ∀ raw ∈ raws, '\n' ∉ raw) (hws : a.words.toList.drop k = ws)
    (hlength : ws.length = (statements raws).length) :
    IsListing k raws ws (((noted k raws).filterMap a.row).map String.toList) := by
  induction raws generalizing k ws with
  | nil =>
      obtain rfl := List.length_eq_zero_iff.mp hlength
      exact .nil k
  | cons raw rest ih =>
      obtain ⟨hraw, hrest⟩ := List.forall_mem_cons.mp hfeed
      rw [statements_cons, statements_singleton, List.length_append] at hlength
      rw [noted]
      by_cases hstatement : statementOf raw = []
      · rw [if_pos hstatement] at hlength ⊢
        rw [List.length_nil, Nat.zero_add] at hlength
        have hlisting := ih hrest hws hlength
        rw [List.filterMap_cons, row_bare]
        by_cases hblank : Text.trim raw = []
        · rw [if_pos hblank]
          exact hlisting.skip hblank
        · rw [if_neg hblank, List.map_cons, String.toList_ofList]
          exact hlisting.bare hblank hstatement
      · rw [if_neg hstatement] at hlength ⊢
        cases ws with
        | nil =>
            rw [List.length_nil, List.length_singleton] at hlength
            omega
        | cons w ws =>
            have hword : a.words[k]? = some w := by
              rw [← Array.getElem?_toList, ← List.head?_drop, hws]
              rfl
            have hdrop : a.words.toList.drop (k + 1) = ws := by
              rw [← List.drop_drop, hws]
              rfl
            rw [List.length_cons, List.length_singleton] at hlength
            rw [List.filterMap_cons, row_placed hword, List.map_cons, String.toList_ofList]
            exact (ih hrest hdrop (by omega)).placed
              (fun hblank => hstatement (statementOf_of_trim hraw hblank)) hstatement

/-! ## The listing of a program -/

/-- The rows above the lines. -/
def titles : List Text := ["ADDR  WORD  SOURCE".toList, List.replicate 60 '-']

theorem map_header : Assembler.header.map String.toList = titles := by
  simp [Assembler.header, titles]

theorem map_raw_noted (k : Nat) (raws : List Text) : (noted k raws).map SourceLine.raw = raws := by
  induction raws generalizing k with
  | nil => rfl
  | cons raw rest ih =>
      rw [noted]
      split <;> rw [List.map_cons, ih]

/-- No row holds a line feed. -/
theorem not_mem_row {line : SourceLine} {row : String} (hfeed : '\n' ∉ line.raw)
    (h : a.row line = some row) : '\n' ∉ row.toList := by
  have hraw : '\n' ∉ Text.trim line.raw := fun hmem => hfeed (mem_of_mem_stripped hmem)
  have hnumeral (width n : Nat) : '\n' ∉ Hex.lower width n :=
    fun hmem => absurd (Hex.mem_figures_of_mem_lower hmem) (by decide)
  rw [Assembler.row] at h
  split at h
  · cases h
    simp [hraw, hnumeral]
  · split at h
    · cases h
    · cases h
      simp [hraw]

theorem splitOn_listing (hfeed : ∀ line ∈ a.lines, '\n' ∉ line.raw) :
    a.listing.toList.splitOn '\n' =
      titles ++ (a.lines.toList.filterMap a.row).map String.toList := by
  have hrows : a.listingRows.map String.toList =
      titles ++ (a.lines.toList.filterMap a.row).map String.toList := by
    rw [Assembler.listingRows, List.map_append, map_header]
  rw [Assembler.listing, String.toList_intercalate, hrows]
  have hnewline : "\n".toList = ['\n'] := rfl
  rw [hnewline]
  apply List.splitOn_intercalate
  · intro row hrow
    rcases List.mem_append.mp hrow with htitle | hrow
    · exact (by decide : ∀ title ∈ titles, '\n' ∉ title) row htitle
    · obtain ⟨shown, hshown, rfl⟩ := List.mem_map.mp hrow
      obtain ⟨line, hline, hsome⟩ := List.mem_filterMap.mp hshown
      exact not_mem_row (hfeed line (Array.mem_toList_iff.mp hline)) hsome
  · exact List.append_ne_nil_of_left_ne_nil (List.cons_ne_nil _ _) _

/-- **The listing is the program**: under the titles it has a row for each line that is not
blank, and the columns of the rows with statements are the addresses and the words. -/
theorem listing_of_assemble {before : Assembler} {source : Source} {p : Program}
    (h : before.assemble source = (a, .ok p)) :
    ∃ t rows, source.decode = .ok t ∧ a.listing.toList.splitOn '\n' = titles ++ rows ∧
      IsListing 0 (Text.lines t) p.words rows := by
  rw [Assembler.assemble] at h
  cases hdecode : source.decode with
  | error fault =>
      rw [hdecode] at h
      cases h
  | ok t =>
      rw [hdecode] at h
      rcases htext : Assembler.ofText t with ⟨a₁, _ | e⟩
      · simp only [htext] at h
        cases h
        obtain ⟨read, words, hread, hwords, rfl⟩ := ofText_eq_none_iff.mp htext
        have hlines : read.lines.toList = noted 0 (Text.lines t) := lines_readLines hread
        have hlength : words.toList.length = (statements (Text.lines t)).length := by
          rw [← (wordsFrom_eq_none hwords).length_eq]
          exact (pass_of_readLines hread).behind.size
        have hfeed : ∀ raw ∈ Text.lines t, '\n' ∉ raw :=
          fun raw hraw => Text.not_mem_of_mem_lines hraw
        refine ⟨t, _, rfl, splitOn_listing ?_, ?_⟩
        · intro line hline
          have hraw : line.raw ∈ (noted 0 (Text.lines t)).map SourceLine.raw := by
            rw [← hlines]
            exact List.mem_map_of_mem (Array.mem_toList_iff.mpr hline)
          rw [map_raw_noted] at hraw
          exact hfeed line.raw hraw
        · show IsListing 0 _ _ ((read.lines.toList.filterMap _).map _)
          rw [hlines]
          exact isListing_noted hfeed List.drop_zero hlength
      · simp only [htext] at h
        cases h

end IttyBitty.Assembly
