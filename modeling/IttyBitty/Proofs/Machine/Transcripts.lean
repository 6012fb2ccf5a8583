import IttyBitty.Proofs.Machine.Answers
import IttyBitty.Proofs.Memory.Formats

/-!
# What is printed is read back

A machine prints each word on a line of its own, and a reading instruction takes one line,
whatever it makes of it. So a machine that is given what another one has printed gets the
words back one by one, with any other instructions in between, and finds the end behind
the last of them (`Machine.printed_is_read_back`). A prompt comes before the line: where
it cannot be shown, nothing is read.
-/

namespace IttyBitty

/-- The characters in front of the line feed when an operation prints a word. -/
def Op.shown (op : Op) (w : Word) : Text :=
  match op with
  | .printH => HexListing.row w
  | _ => [Char.ofNat (w.toNat % 256)]

/-- The word that a reading operation makes of a trimmed line. -/
def Op.typed : Op → RawText → Except Fault Word
  | .readH => Machine.typedWord
  | _ => Machine.typedCharacter

/-- A line, with its line feed, says a number to an operation that reads. -/
def Op.Says (op : Op) (line : RawText) (v : Int) : Prop :=
  ∃ w, op.typed (RawText.trim line) = .ok w ∧ w.value = v

namespace Op

theorem feed_not_mem_row (w : Word) : '\n' ∉ printH.shown w :=
  fun h => (HexListing.plain_of_mem_row h).2.1 (by decide)

/-- The row of a word says the word. -/
theorem says_row (w : Word) : readH.Says (RawText.ofText (printH.shown w ++ ['\n'])) w.value := by
  have htrim : Text.trim (printH.shown w ++ ['\n']) = HexListing.row w :=
    (stripped_append _ (by decide)).trans (HexListing.trim_row w)
  have hdigits : (HexListing.row w).all Hex.isDigit = true :=
    List.all_eq_true.mpr (Hex.isDigit_of_mem_fourFigures w.isLt)
  have hlength : (HexListing.row w).length = 4 := rfl
  refine ⟨w, ?_, rfl⟩
  rw [RawText.trim_ofText, htrim]
  show Machine.typedWord (RawText.ofText (HexListing.row w)) = .ok w
  rw [Machine.typedWord, RawText.length_ofText, if_neg (by omega), RawText.text?_ofText]
  simp only [if_pos hdigits]
  rw [HexListing.row, Hex.number_fourFigures w.isLt, BitVec.ofNat_toNat, BitVec.setWidth_eq]

private theorem toNat_ofNat : ∀ n < 128, (Char.ofNat n).toNat = n := by decide

variable {w : Word}

theorem feed_not_mem_character (hvisible : isBlank (Char.ofNat (w.toNat % 256)) = false) :
    '\n' ∉ printC.shown w := by
  intro h
  rw [← List.mem_singleton.mp h] at hvisible
  cases hvisible

/-- A visible character of ASCII says its number. -/
theorem says_character (hascii : w.toNat % 256 < 128)
    (hvisible : isBlank (Char.ofNat (w.toNat % 256)) = false) :
    readC.Says (RawText.ofText (printC.shown w ++ ['\n'])) (w.value % 256) := by
  have htrim : Text.trim (printC.shown w ++ ['\n']) = [Char.ofNat (w.toNat % 256)] := by
    refine (stripped_append _ (by decide)).trans (Text.trim_eq_self ?_ ?_)
    · intro c hc
      rw [← Option.some.inj hc]
      exact hvisible
    · intro c hc
      rw [← Option.some.inj hc]
      exact hvisible
  have htoNat := toNat_ofNat _ hascii
  refine ⟨BitVec.ofNat 16 (w.toNat % 256), ?_, ?_⟩
  · rw [RawText.trim_ofText, htrim]
    show Machine.typedCharacter (RawText.ofText [Char.ofNat (w.toNat % 256)]) = .ok _
    rw [Machine.typedCharacter, RawText.text?_ofText]
    simp only [htoNat, if_pos hascii]
  · rw [Word.value, Word.value, BitVec.toNat_ofNat]
    omega

end Op

namespace Input

theorem linesOf_unlines {bodies : List Text} (h : ∀ body ∈ bodies, '\n' ∉ body) :
    linesOf (RawText.ofText (Text.unlines bodies)) =
      bodies.map fun body => RawText.ofText (body ++ ['\n']) := by
  induction bodies with
  | nil => rfl
  | cons body bodies ih =>
      obtain ⟨hbody, hbodies⟩ := List.forall_mem_cons.mp h
      have hcons : RawText.ofText (Text.unlines (body :: bodies))
          = RawText.ofText body ++ .char '\n' :: RawText.ofText (Text.unlines bodies) := by
        simp [Text.unlines]
      rw [hcons, linesOf_line (mt RawText.mem_ofText.mp hbody), ih hbodies, List.map_cons,
        RawText.ofText_append]
      rfl

/-- A read that works shows the first of the lines that are left. -/
theorem Works.readLine_fst {input : Input} (h : input.Works) :
    input.readLine.1 = input.toRead.head?.elim .ended .line := by
  obtain ⟨rest, -, -, hread⟩ := h.readLine
  by_cases hnil : input.unread = []
  · have htoRead : input.toRead = [] := by
      rw [Input.toRead, hnil]
      rfl
    rw [hread, if_pos hnil, htoRead]
    rfl
  · rw [if_neg hnil] at hread
    rw [(yields_of_readLine hread).toRead, hread]
    rfl

end Input

namespace Machine

variable {m m' : Machine} {op : Op} {n : Nat}

/-! ## Printing -/

/-- The machine behind an instruction that has been executed with each of some words in the
accumulator. -/
def executeWith (m : Machine) (i : Instruction) (ws : List Word) : Machine :=
  ws.foldl (fun m w => ((m.setAcc w.value).execute i).1) m

/-- What an instruction writes while it is executed with one word after another. -/
theorem text_executeWith {i : Instruction} (hprompt : i.op.promptText = "")
    (hworks : m.output.mode = .works) (ws : List Word) :
    (m.executeWith i ws).output.text =
      m.output.text ++ String.join (ws.map fun w => i.op.line w.value) := by
  induction ws generalizing m with
  | nil => simp [executeWith]
  | cons w ws ih =>
      have hworks' : ((m.setAcc w.value).execute i).1.output.mode = .works :=
        (keeps_execute _ i).mode.trans hworks
      have htext : ((m.setAcc w.value).execute i).1.output.text
          = m.output.text ++ i.op.line w.value := by
        rw [text_execute (by exact hworks), hprompt, ite_self]
        rfl
      have hcons : m.executeWith i (w :: ws)
          = ((m.setAcc w.value).execute i).1.executeWith i ws := rfl
      rw [hcons, ih hworks', htext, List.map_cons, String.join_cons, RawText.ofString_append,
        List.append_assoc]

theorem toList_line (h : op ∈ [Op.printH, .printC]) (w : Word) :
    (op.line w.value).toList = op.shown w ++ ['\n'] := by
  simp only [List.mem_cons, List.not_mem_nil, or_false] at h
  rcases h with rfl | rfl
  · have hlower : Hex.lowerInt 4 w.value = HexListing.row w := by
      rw [Hex.lowerInt, if_neg (Int.not_lt.mpr w.value_nonneg), HexListing.row,
        ← Hex.lower_four w.isLt]
      rfl
    rw [Op.line, printedWord, hlower, String.toList_ofList]
    rfl
  · have hlow : (w.value % 256).toNat = w.toNat % 256 := by
      rw [Word.value]
      omega
    rw [Op.line, printedCharacter, hlow, String.toList_ofList]
    rfl

/-- A printing instruction writes a line for every word. -/
theorem text_printing {i : Instruction} (h : i.op ∈ [Op.printH, .printC])
    (hworks : m.output.mode = .works) (ws : List Word) :
    (m.executeWith i ws).output.text =
      m.output.text ++ RawText.ofText (Text.unlines (ws.map i.op.shown)) := by
  have hprompt : i.op.promptText = "" := by
    simp only [List.mem_cons, List.not_mem_nil, or_false] at h
    rcases h with h | h <;> rw [h] <;> rfl
  rw [text_executeWith hprompt hworks ws, RawText.ofString, String.toList_join, Text.unlines,
    List.flatMap_map, List.flatMap_map]
  simp only [toList_line h]

/-! ## Taking lines -/

/-- How many of the first steps execute an instruction that reads. -/
def reads (m : Machine) : Nat → Nat
  | 0 => 0
  | n + 1 => m.reads n + if (m.steps n).nextOp ∈ [some .readH, some .readC] then 1 else 0

/-- The machine can show its prompts, if it shows any. -/
def ShowsPrompts (m : Machine) : Prop := m.prompting = true → m.output.mode = .works

theorem ShowsPrompts.fault_eq_none (h : m.ShowsPrompts) (text : String) :
    (m.prompt text).2 = none := by
  rw [prompt_fault]
  by_cases hp : m.prompting = true
  · simp [hp, Output.writes, Output.flushes, h hp]
  · simp [hp]

theorem ShowsPrompts.steps (h : m.ShowsPrompts) (n : Nat) : (m.steps n).ShowsPrompts := by
  rw [ShowsPrompts, prompting_steps, mode_steps]
  exact h

/-- The line that answers the next step is the first one that is left, if it reads. -/
theorem answer?_eq (hworks : m.input.Works) (hprompts : m.ShowsPrompts) :
    m.answer? =
      if m.nextOp ∈ [some .readH, some .readC] then m.input.toRead.head? else none := by
  have hheard : m.heard? = m.input.toRead.head? := by
    rw [heard?, if_pos (hprompts.fault_eq_none _), hworks.readLine_fst]
    cases m.input.toRead.head? <;> rfl
  rw [answer?]
  cases m.nextOp with
  | none => rfl
  | some op =>
      rw [Option.bind_some, taken?, hheard]
      simp

/-- A step takes a line if it reads, and the others stay. -/
theorem toRead_step (hworks : m.input.Works) (hprompts : m.ShowsPrompts) :
    m.step.1.input.toRead = m.input.toRead.drop
      (if m.nextOp ∈ [some .readH, some .readC] then 1 else 0) := by
  have htaken := m.exchanges_step.taken hworks
  rw [answer?_eq hworks hprompts] at htaken
  split at htaken
  · rename_i hreads
    rw [if_pos hreads]
    cases hlines : m.input.toRead <;> simp_all
  · rename_i hreads
    rw [if_neg hreads]
    exact htaken.symm

/-- **As many lines have gone as there have been reading instructions.** -/
theorem toRead_steps (hworks : m.input.Works) (hprompts : m.ShowsPrompts) (n : Nat) :
    (m.steps n).input.toRead = m.input.toRead.drop (m.reads n) := by
  induction n with
  | zero => rfl
  | succ n ih =>
      have hworks' := (m.exchanges_steps n).works hworks
      rw [steps, toRead_step hworks' (hprompts.steps n), ih, List.drop_drop, reads]

/-! ## Reading -/

theorem execute_of_reading {i : Instruction} (h : i.op ∈ [Op.readH, .readC]) :
    m.execute i = m.readInto i.op.promptText i.op.typed := by
  simp only [List.mem_cons, List.not_mem_nil, or_false] at h
  rcases h with h | h <;> rw [execute, h] <;> rfl

theorem step_of_reading (hop : m.nextOp = some op) (h : op ∈ [Op.readH, .readC]) :
    ∃ w, m.step = (m.behind w).readInto op.promptText op.typed := by
  rcases m.step_cases with ⟨hhalted, -⟩ | ⟨-, hpc, -⟩ | ⟨hrun, hpc, hstep⟩
  · simp [nextOp, nextEntry, hhalted] at hop
  · simp [nextOp, nextEntry, Nat.not_lt.mpr hpc] at hop
  · rw [nextOp, nextEntry_of_running hrun hpc] at hop
    obtain rfl := Option.some.inj hop
    exact ⟨_, hstep.trans (execute_of_reading h)⟩

/-- A prompt that can be shown is no reason not to read. -/
theorem ShowsPrompts.not_prompted {text : String} {fault : Fault} (h : m.ShowsPrompts) :
    ¬ m.Prompted text m' (some fault) := by
  intro hprompt
  have hnone := hprompt.fault_eq.symm.trans (h.fault_eq_none text)
  cases hnone

/-- What a reading instruction makes of its line, if the line says what it should. -/
theorem readInto_of_line {text : String} {value? : RawText → Except Fault Word} {line : RawText}
    {w : Word} (hprompts : m.ShowsPrompts) (hread : m.input.readLine.1 = .line line)
    (hvalue : value? (RawText.trim line) = .ok w) :
    (m.readInto text value?).2 = none ∧ (m.readInto text value?).1.registers.acc = w.value := by
  have hcases := m.readInto_cases text value?
  generalize (m.readInto text value?).1 = m', (m.readInto text value?).2 = fault at hcases
  cases hcases with
  | unprompted hprompt => exact absurd hprompt hprompts.not_prompted
  | failed hprompt hread' =>
      rw [← hprompt.input, hread'] at hread
      cases hread
  | ended hprompt hread' =>
      rw [← hprompt.input, hread'] at hread
      cases hread
  | refused hprompt hread' hvalue' =>
      rw [← hprompt.input, hread'] at hread
      cases hread
      rw [hvalue] at hvalue'
      cases hvalue'
  | accepted hprompt hread' hvalue' =>
      rw [← hprompt.input, hread'] at hread
      cases hread
      rw [hvalue] at hvalue'
      cases hvalue'
      exact ⟨rfl, rfl⟩

theorem readInto_of_ended {text : String} {value? : RawText → Except Fault Word}
    (hprompts : m.ShowsPrompts) (hread : m.input.readLine.1 = .ended) :
    (m.readInto text value?).2 = some .inputEnded := by
  have hcases := m.readInto_cases text value?
  generalize (m.readInto text value?).1 = m', (m.readInto text value?).2 = fault at hcases
  cases hcases with
  | unprompted hprompt => exact absurd hprompt hprompts.not_prompted
  | ended => rfl
  | failed hprompt hread' =>
      rw [← hprompt.input, hread'] at hread
      cases hread
  | refused hprompt hread' =>
      rw [← hprompt.input, hread'] at hread
      cases hread
  | accepted hprompt hread' =>
      rw [← hprompt.input, hread'] at hread
      cases hread

/-- The machine gets some numbers back with an operation that reads: its reading
instructions take one number each, as long as there are any, and then find the end. -/
structure ReadsBack (m : Machine) (op : Op) (values : List Int) : Prop where
  gets : ∀ n v, (m.steps n).nextOp = some op → values[m.reads n]? = some v →
    (m.steps n).step.2 = none ∧ (m.steps (n + 1)).registers.acc = v
  ended : ∀ n, (m.steps n).nextOp = some op → values.length ≤ m.reads n →
    (m.steps n).step.2 = some .inputEnded

/-- Lines that say some words one by one give these words back. -/
theorem readsBack_of_toRead {ws : List Word} {line : Word → RawText} {back : Word → Int}
    (hworks : m.input.Works) (hprompts : m.ShowsPrompts) (hop : op ∈ [Op.readH, .readC])
    (htoRead : m.input.toRead = ws.map line)
    (hvalues : ∀ w ∈ ws, op.Says (line w) (back w)) : m.ReadsBack op (ws.map back) := by
  have hread (n : Nat) : (m.steps n).input.readLine.1
      = (ws[m.reads n]?.map line).elim .ended .line := by
    rw [((m.exchanges_steps n).works hworks).readLine_fst, toRead_steps hworks hprompts,
      htoRead, List.head?_drop, List.getElem?_map]
  constructor
  · intro n v hnext hv
    rw [List.getElem?_map, Option.map_eq_some_iff] at hv
    obtain ⟨w, hw, rfl⟩ := hv
    obtain ⟨w', hvalue, hback⟩ := hvalues w (List.mem_of_getElem? hw)
    obtain ⟨fetched, hstep⟩ := step_of_reading hnext hop
    have hline : ((m.steps n).behind fetched).input.readLine.1 = .line (line w) :=
      (hread n).trans (by rw [hw]; rfl)
    rw [steps, hstep, ← hback]
    exact readInto_of_line (hprompts.steps n) hline hvalue
  · intro n hnext hlength
    rw [List.length_map] at hlength
    obtain ⟨fetched, hstep⟩ := step_of_reading hnext hop
    have hended : ((m.steps n).behind fetched).input.readLine.1 = .ended :=
      (hread n).trans (by rw [List.getElem?_eq_none hlength]; rfl)
    rw [hstep]
    exact readInto_of_ended (hprompts.steps n) hended

/-! ## What has been printed -/

/-- What an instruction prints for some words gives numbers to another machine, if each line
says the number of its word. -/
theorem exists_text_readsBack {p : Machine} {i : Instruction} {ws : List Word}
    {back : Word → Int} (hp : p.output.mode = .works) (hprints : i.op ∈ [Op.printH, .printC])
    (hop : op ∈ [Op.readH, .readC]) (hfeed : ∀ w ∈ ws, '\n' ∉ i.op.shown w)
    (hvalues : ∀ w ∈ ws, op.Says (RawText.ofText (i.op.shown w ++ ['\n'])) (back w)) :
    ∃ text, (p.executeWith i ws).output.text = p.output.text ++ text ∧
      ∀ m : Machine, m.input.Works → m.input.unread = text → m.ShowsPrompts →
        m.ReadsBack op (ws.map back) := by
  refine ⟨_, text_printing hprints hp ws, ?_⟩
  intro m hworks hunread hprompts
  refine readsBack_of_toRead hworks hprompts hop ?_ hvalues
  rw [Input.toRead, hunread, Input.linesOf_unlines (List.forall_mem_map.mpr hfeed),
    List.map_map]
  rfl

/-- **What is printed is read back**: the lines that a machine has printed for some words
give these words, or their low bytes, to the reading instructions of another machine. -/
theorem printed_is_read_back {p : Machine} (hp : p.output.mode = .works) (ws : List Word) :
    (∀ i : Instruction, i.op = .printH →
      ∃ text, (p.executeWith i ws).output.text = p.output.text ++ text ∧
        ∀ m : Machine, m.input.Works → m.input.unread = text → m.ShowsPrompts →
          m.ReadsBack .readH (ws.map Word.value)) ∧
    ((∀ w ∈ ws, w.toNat % 256 < 128 ∧ isBlank (Char.ofNat (w.toNat % 256)) = false) →
      ∀ i : Instruction, i.op = .printC →
        ∃ text, (p.executeWith i ws).output.text = p.output.text ++ text ∧
          ∀ m : Machine, m.input.Works → m.input.unread = text → m.ShowsPrompts →
            m.ReadsBack .readC (ws.map fun w => w.value % 256)) := by
  constructor
  · intro i hi
    exact exists_text_readsBack hp (by simp [hi]) (by simp)
      (fun w _ => hi ▸ Op.feed_not_mem_row w) (fun w _ => hi ▸ Op.says_row w)
  · intro hplain i hi
    exact exists_text_readsBack hp (by simp [hi]) (by simp)
      (fun w hw => hi ▸ Op.feed_not_mem_character (hplain w hw).2)
      (fun w hw => hi ▸ Op.says_character (hplain w hw).1 (hplain w hw).2)

/-- Two words are printed and read back; the third reading finds the end. -/
theorem printed_is_read_back_words :
    let p : Machine := { memory := .empty }
    let m : Machine :=
      { memory := Memory.ofWords [0x1000, 0x1000, 0x1000] (by decide)
        input := .ofText "12ab\n00ff\n" }
    p.output.mode = .works ∧
      (p.executeWith ⟨.printH, 0, 0⟩ [0x12ab, 0x00ff]).output.text = "12ab\n00ff\n" ∧
      m.ReadsBack .readH [0x12ab, 0x00ff] ∧
      (m.steps 2).registers.acc = 0x00ff ∧ (m.steps 2).step.2 = some .inputEnded := by
  intro p m
  obtain ⟨text, htext, hreads⟩ :=
    (printed_is_read_back (p := p) rfl [0x12ab, 0x00ff]).1 ⟨.printH, 0, 0⟩ rfl
  have hprinted : (p.executeWith ⟨.printH, 0, 0⟩ [0x12ab, 0x00ff]).output.text
      = "12ab\n00ff\n" := by decide
  have hempty : p.output.text = "" := rfl
  have hback : m.ReadsBack .readH [0x12ab, 0x00ff] := by
    refine hreads m (Input.works_ofText _) ?_ (fun _ => rfl)
    rw [hprinted, hempty] at htext
    exact htext
  have hsecond := hback.gets 1 0x00ff (by decide) (by decide)
  have hthird := hback.ended 2 (by decide) (by decide)
  exact ⟨rfl, hprinted, hback, hsecond.2, hthird⟩

/-- A step of a halted machine changes nothing. -/
theorem steps_of_halted (h : m.halted = true) (n : Nat) : m.steps n = m := by
  induction n with
  | zero => rfl
  | succ n ih => rw [steps, ih, step, if_pos h]

/-- A machine that is to show a prompt, and cannot, does not read what has been printed. -/
theorem unread_behind_failing_prompt :
    ∃ p m : Machine, p.output.mode = .works ∧ m.input.Works ∧
      m.input.unread = (p.executeWith ⟨.printH, 0, 0⟩ [0x00ff]).output.text ∧
      (∀ n, (m.steps n).nextOp ≠ some .readC) ∧ ¬ m.ReadsBack .readH [0x00ff] := by
  let p : Machine := { memory := .empty }
  let m : Machine :=
    { memory := Memory.ofWords [0x1000] (by decide)
      input := .ofText "00ff\n"
      output := { mode := .failsToWrite } }
  refine ⟨p, m, rfl, Input.works_ofText _, by decide, ?_, ?_⟩
  · -- the word behind the reading instruction halts
    intro n
    match n with
    | 0 => decide
    | 1 => decide
    | n + 2 =>
        have hhalted : m.steps (2 + n) = m.steps 2 := by
          rw [steps_add, steps_of_halted (by decide)]
        rw [Nat.add_comm, hhalted]
        decide
  · intro hreads
    have hnone := (hreads.gets 0 0x00ff (by decide) (by decide)).1
    have hfault : (m.steps 0).step.2 = some .outputFailed := by decide
    rw [hfault] at hnone
    cases hnone

end Machine

end IttyBitty
