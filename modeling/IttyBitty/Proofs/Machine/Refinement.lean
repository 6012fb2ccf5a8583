import IttyBitty.Proofs.Machine.Effects
import IttyBitty.Proofs.Machine.Table
import IttyBitty.Proofs.Stream.Reading
import IttyBitty.Proofs.Text.Trimming
import IttyBitty.Proofs.Word.Arithmetic

/-!
# The machine follows the instruction table

A machine shows a state of the table when its registers, words, flag and
streams are those of the state. A step of a machine that shows a state leads
to one that shows the state after the table's step, with the same fault if
there is one. What the table does not speak about, that is the switches, the
length of the program and the trace, changes in one way only: a step that
fetches is noted if the trace is kept.
-/

namespace IttyBitty

open Table (State)

namespace Machine

/-- The machine is in a state of the table. -/
structure Shows (m : Machine) (s : State) : Prop where
  acc : m.registers.acc = s.acc
  ir : m.registers.ir = s.ir
  pc : m.registers.pc = s.pc
  cells : ∀ a : Address, (m.memory.fetch a).toNat = s.cells a
  halted : m.halted = s.halted
  unread : m.input.unread = s.unread
  written : m.output.text = s.written

/-- The streams of the machine work. -/
structure Connected (m : Machine) : Prop where
  input : m.input.Works
  output : m.output.mode = .works

/-- The state that a machine is in. -/
def view (m : Machine) : State where
  acc := m.registers.acc.toNat
  ir := m.registers.ir.toNat
  pc := m.registers.pc
  cells a := if h : a < 4096 then (m.memory.fetch ⟨a, h⟩).toNat else 0
  halted := m.halted
  unread := m.input.unread
  written := m.output.text

/-- A machine and a fault are what the table says. -/
def Agrees (r : Machine × Option Fault) (t : State × Option Fault) : Prop :=
  r.1.Shows t.1 ∧ r.2 = t.2

variable {m : Machine} {s : State}

/-! ## Changing one thing -/

theorem Shows.setAcc (h : m.Shows s) {w : Word} {a : Nat} (hw : w.toNat = a) :
    (m.setAcc w.value).Shows { s with acc := a } :=
  { h with acc := by rw [← hw]; rfl }

theorem Shows.setPc (h : m.Shows s) (pc : Nat) :
    (m.setPc pc).Shows { s with pc := pc } :=
  { h with pc := rfl }

theorem Shows.halt (h : m.Shows s) :
    Shows { m with halted := true } { s with halted := true } :=
  { h with halted := rfl }

theorem Shows.store (h : m.Shows s) (hacc : s.acc < 65536) (a : Address) :
    Shows { m with memory := m.memory.store a (Word.ofInt m.registers.acc) }
      { s with cells := fun b => if b = a then s.acc else s.cells b } where
  __ := h
  cells b := by
    show ((m.memory.store a _).fetch b).toNat = if (b : Nat) = a then _ else _
    rw [Memory.fetch_store, h.acc]
    by_cases hab : a = b
    · rw [if_pos hab, if_pos (by rw [hab]), Word.toNat_ofInt_of_lt hacc]
    · rw [if_neg hab, if_neg fun he => hab (Fin.ext he.symm), h.cells]

theorem Shows.append (h : m.Shows s) (text : RawText) :
    Shows { m with output := m.output.append text } (s.write text) :=
  { h with written := by show m.output.text ++ text = _; rw [h.written]; rfl }

theorem Connected.append (h : m.Connected) (text : RawText) :
    Connected { m with output := m.output.append text } :=
  ⟨h.input, h.output⟩

/-! ## Streams -/

theorem Connected.write (h : m.Connected) (text : String) :
    m.write text = ({ m with output := m.output.append text }, none) := by
  simp [Machine.write, Output.writes, h.output]

theorem Connected.prompt (h : m.Connected) (text : String) :
    m.prompt text =
      (if m.prompting then { m with output := m.output.append text } else m, none) := by
  by_cases hp : m.prompting = true
  · simp [Machine.prompt, hp, h.write, Output.flushes, Output.append, h.output]
  · simp [Machine.prompt, hp]

/-- The line feed behind a line is trimmed away with the blanks. -/
theorem trim_firstLine (t : RawText) :
    RawText.trim (Input.firstLine t) = RawText.trim (t.takeWhile (· != .char '\n')) := by
  rw [Input.firstLine]
  cases ht : t.dropWhile (· != .char '\n') with
  | nil => simp
  | cons c rest =>
      have hc : c = .char '\n' := by
        have := List.head_dropWhile_not (· != .char '\n') (l := t) (by simp [ht])
        simpa [ht] using this
      rw [hc]
      exact stripped_append _ rfl

/-- Reading one line into the accumulator. -/
theorem Shows.read (h : m.Shows s) (hm : m.Connected)
    {value? : RawText → Except Fault Word} {word? : RawText → Option Nat}
    {refusal : RawText → Fault}
    (hvalue : ∀ line, (value? line).map BitVec.toNat
      = (word? line).elim (.error (refusal line)) .ok) :
    Agrees
      (match m.input.readLine with
        | (.failed, rest) => ({ m with input := rest }, some .inputFailed)
        | (.ended, rest) => ({ m with input := rest }, some .inputEnded)
        | (.line line, rest) =>
          let m := { m with input := rest }
          match value? (RawText.trim line) with
          | .error fault => (m, some fault)
          | .ok w => (m.setAcc w.value, none))
      (s.read word? refusal) := by
  obtain ⟨rest, -, hunread, hread⟩ := hm.input.readLine
  rw [hread, State.read, ← h.unread]
  by_cases hnil : m.input.unread = []
  · rw [if_pos hnil, if_pos hnil]
    refine ⟨{ h with unread := ?_ }, rfl⟩
    show rest.unread = _
    rw [hunread, ← h.unread, hnil]
    rfl
  · rw [if_neg hnil, if_neg hnil]
    have hrest : Shows { m with input := rest }
        { s with unread := Input.afterLine m.input.unread } :=
      { h with unread := hunread }
    have hline := hvalue (RawText.trim (Input.firstLine m.input.unread))
    rw [trim_firstLine] at hline
    simp only [trim_firstLine]
    cases hw : word? (RawText.trim (m.input.unread.takeWhile (· != .char '\n'))) with
    | none =>
        cases hv : value? (RawText.trim (m.input.unread.takeWhile (· != .char '\n'))) with
        | error fault =>
            rw [hw, hv] at hline
            cases hline
            exact ⟨hrest, rfl⟩
        | ok w => rw [hw, hv] at hline; cases hline
    | some a =>
        cases hv : value? (RawText.trim (m.input.unread.takeWhile (· != .char '\n'))) with
        | error fault => rw [hw, hv] at hline; cases hline
        | ok w =>
            rw [hw, hv] at hline
            exact ⟨hrest.setAcc (Except.ok.inj hline), rfl⟩

/-- The two instructions that read: prompt, line, value. -/
theorem Shows.readInto (h : m.Shows s) (hm : m.Connected) (prompt : String)
    {value? : RawText → Except Fault Word} {word? : RawText → Option Nat}
    {refusal : RawText → Fault}
    (hvalue : ∀ line, (value? line).map BitVec.toNat
      = (word? line).elim (.error (refusal line)) .ok) :
    Agrees (m.readInto prompt value?)
      ((if m.prompting then s.write prompt else s).read word? refusal) := by
  rw [Machine.readInto, hm.prompt]
  by_cases hp : m.prompting = true
  · rw [if_pos hp, if_pos hp]
    exact (h.append prompt).read (hm.append prompt) hvalue
  · rw [if_neg hp, if_neg hp]
    exact h.read hm hvalue

/-! ## What is typed -/

private theorem mapM_place? (t : Text) :
    t.mapM Hex.place? =
      if t.all Hex.isDigit then some (t.map fun c => (Hex.place? c).getD 0) else none := by
  induction t with
  | nil => rfl
  | cons c t ih =>
      rw [List.mapM_cons, ih, List.all_cons, Hex.isDigit_eq_place?]
      cases hc : Hex.place? c with
      | none => rfl
      | some d =>
          by_cases ht : t.all Hex.isDigit = true
          · simp [ht, hc]
          · simp [ht]

private theorem mapM_figure? (line : RawText) :
    line.mapM Table.figure? = (RawText.text? line).bind fun t => t.mapM Hex.place? := by
  induction line with
  | nil => rfl
  | cons c line ih =>
      rw [List.mapM_cons, ih]
      cases c with
      | surrogate n => rfl
      | char c =>
          rw [RawText.text?]
          cases RawText.text? line with
          | none => cases Hex.place? c <;> simp [Table.figure?]
          | some t => simp [Table.figure?, List.mapM_cons]

theorem typedWord_eq (line : RawText) :
    (typedWord line).map BitVec.toNat
      = (Table.typedWord line).elim (.error (Table.wordRefusal line)) .ok := by
  rw [typedWord, Table.typedWord, Table.wordRefusal]
  by_cases hlen : 1 ≤ line.length ∧ line.length ≤ 4
  · rw [if_neg (by omega), if_pos hlen, if_pos hlen, mapM_figure?]
    cases htext : RawText.text? line with
    | none => rfl
    | some t =>
        have hlength : t.length ≤ 4 := by
          have := hlen.2
          rwa [RawText.eq_ofText htext, RawText.length_ofText] at this
        simp only [Option.bind_some, mapM_place?]
        by_cases hall : t.all Hex.isDigit = true
        · rw [if_pos hall, if_pos hall, Option.map_some, ← Hex.number_eq_ofDigits]
          show Except.ok (Hex.number t % 65536) = Except.ok (Hex.number t)
          rw [Nat.mod_eq_of_lt (Hex.number_lt hlength)]
        · rw [if_neg hall, if_neg hall]
          rfl
  · rw [if_pos (by omega), if_neg hlen, if_neg hlen]
    rfl

/-- A line of characters is read for one as the table says. -/
private theorem typedCharacter_ofText (t : Text) :
    (typedCharacter (RawText.ofText t)).map BitVec.toNat
      = (Table.typedCharacter (RawText.ofText t)).elim
          (.error (.notOneCharacter (RawText.ofText t))) .ok := by
  rw [typedCharacter, RawText.text?_ofText]
  match t with
  | [] => rfl
  | [c] =>
      simp only [RawText.ofText_cons, RawText.ofText_nil, Table.typedCharacter]
      by_cases hc : c.toNat < 128
      · rw [if_pos hc, if_pos (by omega)]
        show Except.ok (c.toNat % 65536) = Except.ok c.toNat
        rw [Nat.mod_eq_of_lt (by omega)]
      · rw [if_neg hc, if_neg (by omega)]
        rfl
  | _ :: _ :: _ => rfl

theorem typedCharacter_eq (line : RawText) :
    (typedCharacter line).map BitVec.toNat
      = (Table.typedCharacter line).elim (.error (Table.characterRefusal line)) .ok := by
  rw [Table.characterRefusal]
  cases htext : RawText.text? line with
  | some t =>
      rw [RawText.eq_ofText htext]
      exact typedCharacter_ofText t
  | none =>
      rw [typedCharacter, htext]
      match line with
      | [] => cases htext
      | [.char c] => cases htext
      | [.surrogate _] | .surrogate _ :: _ :: _ | .char _ :: _ :: _ => rfl

/-! ## What is printed -/

theorem printedWord_eq {a : Nat} (ha : a < 65536) : printedWord a = Table.wordLine a := by
  rw [printedWord, Table.wordLine, Hex.lowerInt, if_neg (by omega),
    Int.natAbs_natCast, Hex.lower_four ha]

theorem printedCharacter_eq (a : Nat) : printedCharacter a = Table.characterLine a := by
  rw [printedCharacter, Table.characterLine]
  congr 3

/-! ## The instructions -/

/-- Instructions that put the accumulator and a cell together. -/
theorem Shows.combine (h : m.Shows s) {p : Address} {a x : Nat} (hp : (p : Nat) = a)
    {f : Int → Int → Word}
    (hf : s.cells a < 65536 → (f s.acc (s.cells a)).toNat = x) :
    Agrees (m.setAcc (f m.registers.acc (m.memory.fetch p).value).value, none)
      ({ s with acc := x }, none) := by
  have hcell : (m.memory.fetch p).toNat = s.cells a := by rw [h.cells, hp]
  have hlt : s.cells a < 65536 := by
    rw [← hcell]
    exact (m.memory.fetch p).isLt
  refine ⟨h.setAcc ?_, rfl⟩
  rw [h.acc, Word.value_eq, hcell]
  exact hf hlt

/-- **An instruction does what the table says** of its group and selector. The
address and the amount count in the modes that have them. -/
theorem Shows.execute (h : m.Shows s) (hm : m.Connected) (hacc : s.acc < 65536)
    (hpc : s.pc < 65536) {i : Instruction} {g sel a n : Nat} (hg : g < 16)
    (hop : i.op = Op.ofCode g sel) (hn : n < 16)
    (haddress : i.op.mode = .address → (Address.ofInt i.operand : Nat) = a)
    (hamount : i.op.mode = .shift → (i.operand % 16).toNat = n) :
    Agrees (m.execute i) (Table.effect m.prompting g sel a n s) := by
  obtain ⟨op, operand, spare⟩ := i
  simp only at hop haddress hamount
  have haccumulator : m.registers.acc = (s.acc : Int) := h.acc
  rcases g with _ | _ | _ | g
  · -- group 0: halt
    obtain rfl : op = .halt := hop
    exact ⟨h.halt, rfl⟩
  · -- group 1: input and output, told apart by the selector
    rcases sel with _ | _ | _ | sel
    · obtain rfl : op = .readH := hop
      exact h.readInto hm _ typedWord_eq
    · obtain rfl : op = .readC := hop
      exact h.readInto hm _ typedCharacter_eq
    · obtain rfl : op = .printH := hop
      show Agrees (m.write (printedWord m.registers.acc)) _
      rw [hm.write, haccumulator, printedWord_eq hacc]
      exact ⟨h.append _, rfl⟩
    · obtain rfl : op = .printC := hop
      show Agrees (m.write (printedCharacter m.registers.acc)) _
      rw [hm.write, haccumulator, printedCharacter_eq]
      exact ⟨h.append _, rfl⟩
  · -- group 2: shifts and rotations, told apart by the selector
    rcases sel with _ | _ | _ | sel
    · obtain rfl : op = .shiftL := hop
      have hplaces := hamount rfl
      refine ⟨h.setAcc ?_, rfl⟩
      rw [haccumulator, hplaces, Alu.toNat_shiftLeft hacc hn]
    · obtain rfl : op = .shiftR := hop
      have hplaces := hamount rfl
      refine ⟨h.setAcc ?_, rfl⟩
      rw [haccumulator, hplaces, Alu.toNat_shiftRight hacc hn]
    · obtain rfl : op = .rotL := hop
      have hplaces := hamount rfl
      refine ⟨h.setAcc ?_, rfl⟩
      rw [haccumulator, hplaces, Alu.toNat_rotateLeft hacc hn]
    · obtain rfl : op = .rotR := hop
      have hplaces := hamount rfl
      refine ⟨h.setAcc ?_, rfl⟩
      rw [haccumulator, hplaces, Alu.toNat_rotateRight hacc hn]
  · -- the other groups are one operation each
    have hplace : op.mode = .address → (Address.ofInt operand : Nat) = a := haddress
    rcases g with _ | _ | _ | _ | _ | _ | _ | _ | _ | _ | _ | _ | _ | g
    · obtain rfl : op = .load := hop
      have hload := h.combine (f := fun _ b => Word.ofInt b) (hplace rfl)
        Word.toNat_ofInt_of_lt
      rwa [Word.ofInt_value] at hload
    · obtain rfl : op = .store := hop
      rw [← hplace rfl]
      exact ⟨h.store hacc _, rfl⟩
    · obtain rfl : op = .add := hop
      exact h.combine (hplace rfl) fun _ => Alu.toNat_add _ _
    · obtain rfl : op = .sub := hop
      exact h.combine (hplace rfl) Alu.toNat_sub
    · obtain rfl : op = .and := hop
      exact h.combine (hplace rfl) (Alu.toNat_and hacc)
    · obtain rfl : op = .or := hop
      exact h.combine (hplace rfl) (Alu.toNat_or hacc)
    · obtain rfl : op = .xor := hop
      exact h.combine (hplace rfl) (Alu.toNat_xor hacc)
    · obtain rfl : op = .not := hop
      refine ⟨h.setAcc ?_, rfl⟩
      rw [haccumulator, Alu.toNat_not hacc]
    · obtain rfl : op = .nop := hop
      exact ⟨h, rfl⟩
    · obtain rfl : op = .jmp := hop
      rw [← hplace rfl]
      exact ⟨h.setPc _, rfl⟩
    · obtain rfl : op = .jmpe := hop
      rw [← hplace rfl]
      refine ⟨?_, rfl⟩
      show Shows (if m.registers.acc = 0 then m.setPc _ else m) (if s.acc = 0 then _ else s)
      rw [haccumulator]
      by_cases hzero : s.acc = 0
      · rw [if_pos (by omega), if_pos hzero]
        exact h.setPc _
      · rw [if_neg (by omega), if_neg hzero]
        exact h
    · obtain rfl : op = .jmpl := hop
      rw [← hplace rfl]
      refine ⟨?_, rfl⟩
      show Shows (if Alu.isNegative m.registers.acc then m.setPc _ else m)
        (if 32768 ≤ s.acc then _ else s)
      rw [haccumulator]
      by_cases hsign : 32768 ≤ s.acc
      · rw [if_pos ((Alu.isNegative_iff hacc).mpr hsign), if_pos hsign]
        exact h.setPc _
      · rw [if_neg (mt (Alu.isNegative_iff hacc).mp hsign), if_neg hsign]
        exact h
    · obtain rfl : op = .brl := hop
      rw [← hplace rfl]
      have hreturn : (Word.ofInt m.registers.pc).toNat = s.pc := by
        rw [h.pc, Word.toNat_ofInt_of_lt hpc]
      exact ⟨(h.setAcc hreturn).setPc _, rfl⟩
    · omega

/-! ## Streams that go on working -/

theorem ReadInto.works {m' : Machine} {text : String}
    {value? : RawText → Except Fault Word} {fault : Option Fault}
    (h : m.ReadInto text value? m' fault) (hm : m.input.Works) : m'.input.Works := by
  obtain ⟨after, hafter, -, hread⟩ := hm.readLine
  have hrest : ∀ {m' : Machine} {reading : Reading} {rest : Input},
      m'.input = m.input → m'.input.readLine = (reading, rest) → rest.Works := by
    intro m' reading rest hinput hread'
    rw [hinput, hread] at hread'
    cases hread'
    exact hafter
  cases h with
  | unprompted hprompt => rw [hprompt.input]; exact hm
  | failed hprompt hread => exact hrest hprompt.input hread
  | ended hprompt hread => exact hrest hprompt.input hread
  | refused hprompt hread hvalue => exact hrest hprompt.input hread
  | accepted hprompt hread hvalue => exact hrest hprompt.input hread

theorem Connected.execute (hm : m.Connected) (i : Instruction) :
    (m.execute i).1.Connected := by
  refine ⟨?_, (m.keeps_execute i).mode.trans hm.output⟩
  obtain ⟨op, operand, spare⟩ := i
  cases op
  case readH => exact (m.readInto_cases _ _).works hm.input
  case readC => exact (m.readInto_cases _ _).works hm.input
  case printH =>
    show (m.write _).1.input.Works
    rw [hm.write]
    exact hm.input
  case printC =>
    show (m.write _).1.input.Works
    rw [hm.write]
    exact hm.input
  case jmpe =>
    show (if _ then _ else m : Machine).input.Works
    split <;> exact hm.input
  case jmpl =>
    show (if _ then _ else m : Machine).input.Works
    split <;> exact hm.input
  all_goals exact hm.input

/-! ## One step -/

theorem view_cells (m : Machine) (a : Address) :
    m.view.cells a = (m.memory.fetch a).toNat := dif_pos a.isLt

/-- A machine that has fetched a word is in the state from which the table takes
the word's effect. -/
theorem shows_behind (hacc : 0 ≤ m.registers.acc) (w : Word) :
    (m.behind w).Shows { m.view with ir := w.toNat, pc := m.registers.pc + 1 } where
  acc := (Int.toNat_of_nonneg hacc).symm
  ir := rfl
  pc := rfl
  cells a := (m.view_cells a).symm
  halted := rfl
  unread := rfl
  written := rfl

/-- **A step does what the table says of the word at the program counter**, for
every machine that runs inside its memory on a sixteen-bit accumulator and
working streams. The streams work behind the step as well, the setting is the
same, and the trace has noted the instruction if it is kept. -/
theorem step_refines_table (m : Machine) (hrun : m.halted = false)
    (hpc : m.registers.pc ≤ 4095)
    (hacc : 0 ≤ m.registers.acc ∧ m.registers.acc ≤ 65535) (hm : m.Connected) :
    Agrees m.step (Table.step m.prompting m.view) ∧ m.step.1.Connected ∧
      (m.behind (m.memory.fetch ⟨m.registers.pc, by omega⟩)).Keeps m.step.1 := by
  have hinside : m.registers.pc < 4096 := by omega
  rw [step_of_running hrun hinside]
  have hword : m.view.cells m.view.pc
      = (m.memory.fetch ⟨m.registers.pc, hinside⟩).toNat := m.view_cells ⟨_, hinside⟩
  generalize m.memory.fetch ⟨m.registers.pc, hinside⟩ = w at hword
  have hw := w.isLt
  have hbehind : (m.behind w).Connected := ⟨hm.input, hm.output⟩
  refine ⟨?_, hbehind.execute _, (m.behind w).keeps_execute _⟩
  rw [Table.step, hword]
  refine (shows_behind hacc.1 w).execute hbehind ?_ ?_ ?_ rfl ?_ ?_ ?_
  · show m.registers.acc.toNat < 65536
    omega
  · show m.registers.pc + 1 < 65536
    omega
  · omega
  · omega
  · -- the operand of a word that holds an address
    intro hmode
    show ((Instruction.decode w).op.mode.operand w.value % 4096).toNat = _
    rw [hmode, Word.value_eq]
    show ((w.toNat : Int) % 4096 % 4096).toNat = _
    omega
  · -- the operand of a word that holds an amount
    intro hmode
    show ((Instruction.decode w).op.mode.operand w.value % 16).toNat = _
    rw [hmode, Word.value_eq]
    show ((w.toNat : Int) % 16 % 16).toNat = _
    omega

/-- A machine that reads a word that is typed with blanks around it. -/
theorem step_refines_table_typed :
    let m : Machine :=
      { memory := Memory.ofWords [0x1000] (by decide), input := .ofText " 00fF \n" }
    m.halted = false ∧ m.registers.pc ≤ 4095 ∧
      (0 ≤ m.registers.acc ∧ m.registers.acc ≤ 65535) ∧ m.Connected ∧
      Agrees m.step (Table.step m.prompting m.view) :=
  have hm : Connected
      { memory := Memory.ofWords [0x1000] (by decide), input := .ofText " 00fF \n" } :=
    ⟨Input.works_ofText _, rfl⟩
  ⟨rfl, by decide, by decide, hm,
    (step_refines_table _ rfl (by decide) (by decide) hm).1⟩

end Machine

end IttyBitty
