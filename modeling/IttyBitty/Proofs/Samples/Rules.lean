import IttyBitty.Assembly.Assembler
import IttyBitty.Proofs.Machine.Composition
import IttyBitty.Proofs.Machine.Refinement
import IttyBitty.Proofs.Machine.Transcripts
import IttyBitty.Proofs.Memory.Listings
import IttyBitty.Proofs.Word.Laws

/-!
# Following a program

A program is followed through scenes, which hold what it sees of its machine. For each
kind of instruction that loads, stores, adds, subtracts, jumps, reads or prints there is a
rule that says which scene comes next, and scenes lead to one another in a known number
of steps, none of which stops the machine (`Scene.Leads`). Behind them a program ends by
halting or in a fault (`Scene.Ends`), and so it does when its source is assembled, loaded
and run (`Source.Ends`).
-/

namespace IttyBitty

/-- What a program sees: the place of the next instruction, the accumulator, the words
from address 0 on, the lines that are left to read and the text that has been written. -/
structure Scene where
  pc : Nat
  acc : Word
  cells : List Word
  unread : List RawText
  written : RawText

namespace Op

/-- What an operation makes of the accumulator and a cell. -/
def combine? (op : Op) (acc v : Word) : Option Word :=
  match op with
  | .load => some v
  | .add => some (acc + v)
  | .sub => some (acc - v)
  | _ => none

/-- Whether an operation jumps with a word in the accumulator, if it is a jump. -/
def jumps? (op : Op) (acc : Word) : Option Bool :=
  match op with
  | .jmp => some true
  | .jmpe => some (acc == 0)
  | .jmpl => some acc.msb
  | _ => none

end Op

/-- An input that works shows its first line, if there is one, and keeps the others. -/
theorem Input.Works.next {input : Input} (h : input.Works) :
    ∃ rest : Input, rest.Works ∧ rest.toRead = input.toRead.tail ∧
      input.readLine = (input.toRead.head?.elim .ended .line, rest) := by
  obtain ⟨rest, hrest, -, hread⟩ := h.readLine
  have hfirst := h.readLine_fst
  have htoRead := h.toRead
  rw [hfirst, hread] at htoRead
  refine ⟨rest, hrest, ?_, by rw [← hfirst, hread]⟩
  generalize input.toRead = lines at htoRead
  cases lines with
  | nil => exact htoRead.symm
  | cons line lines => exact (List.cons.inj htoRead).2.symm

namespace Machine

/-- The machine runs in a scene, on streams that work and without prompts. What stands
behind the words of the scene may be anything. -/
structure Plays (m : Machine) (s : Scene) : Prop where
  running : m.halted = false
  silent : m.prompting = false
  connected : m.Connected
  pc : m.registers.pc = s.pc
  acc : m.registers.acc = s.acc.value
  room : s.cells.length ≤ 4096
  cells : ∀ (a : Address) (w : Word), s.cells[(a : Nat)]? = some w → m.memory.fetch a = w
  unread : m.input.toRead = s.unread
  written : m.output.text = s.written

/-- The run of the machine without a limit ends behind some counted steps, by halting or
in a fault, with some lines left to read and a text that has been written. -/
def Ends (m : Machine) (steps : Nat) (fault : Option Fault) (unread : List RawText)
    (written : RawText) : Prop :=
  ∃ m', m.Finishes ⟨m', steps, fault⟩ ∧ m'.halted = fault.isNone ∧
    m'.input.toRead = unread ∧ m'.output.text = written

variable {m : Machine} {s : Scene}

/-! ## Changing one thing -/

theorem Plays.setAcc (h : m.Plays s) (w : Word) : (m.setAcc w.value).Plays { s with acc := w } :=
  { h with acc := rfl, connected := ⟨h.connected.input, h.connected.output⟩ }

theorem Plays.setPc (h : m.Plays s) (pc : Nat) : (m.setPc pc).Plays { s with pc } :=
  { h with pc := rfl, connected := ⟨h.connected.input, h.connected.output⟩ }

theorem Plays.store (h : m.Plays s) (a : Address) :
    Plays { m with memory := m.memory.store a (Word.ofInt m.registers.acc) }
      { s with cells := s.cells.set a s.acc } where
  __ := h
  connected := ⟨h.connected.input, h.connected.output⟩
  room := by
    rw [List.length_set]
    exact h.room
  cells b w hw := by
    show (m.memory.store a _).fetch b = w
    rw [Memory.fetch_store, h.acc, Word.ofInt_value]
    rw [List.getElem?_set] at hw
    by_cases hab : a = b
    · rw [if_pos hab]
      rw [if_pos (congrArg Fin.val hab)] at hw
      split at hw
      · exact Option.some.inj hw
      · cases hw
    · rw [if_neg hab]
      rw [if_neg fun he => hab (Fin.ext he)] at hw
      exact h.cells b w hw

theorem Plays.append (h : m.Plays s) (text : RawText) :
    Plays { m with output := m.output.append text } { s with written := s.written ++ text } :=
  { h with
    connected := h.connected.append text
    written := congrArg (· ++ text) h.written }

theorem Plays.setInput (h : m.Plays s) {input : Input} (hinput : input.Works) :
    Plays { m with input } { s with unread := input.toRead } :=
  { h with connected := ⟨hinput, h.connected.output⟩, unread := rfl }

/-- A machine that words have been loaded into. -/
theorem plays_ofWords {ws : List Word} (hfits : ws.length ≤ 4096) {input : Input}
    {output : Output} (hinput : input.Works) (houtput : output.mode = .works) :
    Plays { memory := Memory.ofWords ws hfits, input, output, prompting := false }
      ⟨0, 0, ws, input.toRead, output.text⟩ where
  running := rfl
  silent := rfl
  connected := ⟨hinput, houtput⟩
  pc := rfl
  acc := rfl
  room := hfits
  cells a w hw := by
    show (Memory.ofWords ws hfits).fetch a = w
    rw [Memory.fetch_ofWords, hw]
    rfl
  unread := rfl
  written := rfl

/-- What reading a line comes to, whatever is made of the line. -/
theorem Plays.readInto (h : m.Plays s) (text : String) (value? : RawText → Except Fault Word) :
    ∃ m' : Machine, m'.Plays { s with unread := s.unread.tail } ∧
      m.readInto text value? =
        match s.unread with
        | [] => (m', some .inputEnded)
        | line :: _ =>
          match value? (RawText.trim line) with
          | .error fault => (m', some fault)
          | .ok w => (m'.setAcc w.value, none) := by
  obtain ⟨rest, hrest, htail, hread⟩ := h.connected.input.next
  rw [h.unread] at htail hread
  have hplays := h.setInput hrest
  rw [htail] at hplays
  refine ⟨_, hplays, ?_⟩
  have hprompt : m.prompt text = (m, none) := by
    rw [Machine.prompt, h.silent]
    rfl
  simp only [Machine.readInto, hprompt, hread]
  cases s.unread <;> rfl

/-! ## Steps -/

/-- A step fetches the word at the program counter and executes its instruction. -/
theorem Plays.fetch (h : m.Plays s) {i : Instruction}
    (hi : s.cells[s.pc]?.map Instruction.decode = some i) :
    ∃ m' : Machine, m'.Plays { s with pc := s.pc + 1 } ∧ m.step = m'.execute i := by
  obtain ⟨w, hw, rfl⟩ := Option.map_eq_some_iff.mp hi
  have hlt : s.pc < s.cells.length := (List.getElem?_eq_some_iff.mp hw).1
  have hpc : m.registers.pc < 4096 := by
    have hroom := h.room
    rw [h.pc]
    omega
  have hfetch : m.memory.fetch ⟨m.registers.pc, hpc⟩ = w :=
    h.cells ⟨_, hpc⟩ w (by rw [← hw, ← h.pc])
  refine ⟨m.behind w, ?_, ?_⟩
  · exact { h with
      pc := congrArg (· + 1) h.pc
      connected := ⟨h.connected.input, h.connected.output⟩ }
  · rw [step_of_running h.running hpc, hfetch]

/-- A run goes on behind steps that have not stopped it. -/
theorem Finishes.behind {r : Run} {n : Nat} (h : (m.steps n).Finishes r)
    (hstops : ∀ k < n, ¬ m.Stops k) : m.Finishes { r with steps := n + r.steps } := by
  -- the first of the steps goes in front of the run behind it, which has one step less
  induction n generalizing m with
  | zero =>
      rw [Nat.zero_add]
      exact h
  | succ n ih =>
      rw [steps_succ] at h
      have hmore := ih h fun k hk => mt stops_succ_iff.mpr (hstops (k + 1) (by omega))
      have hzero := hstops 0 (by omega)
      rw [Stops, steps_succ, not_or, not_not, Bool.not_eq_true] at hzero
      rw [Nat.add_right_comm]
      exact .more (Prod.ext rfl hzero.1) hzero.2 hmore

end Machine

namespace Scene

open Machine

/-- The instruction at the place where a program stands. -/
def instruction? (s : Scene) : Option Instruction := s.cells[s.pc]?.map Instruction.decode

/-- A machine in the first scene comes to the second in so many steps, none of which
stops it. -/
def Leads (n : Nat) (s s' : Scene) : Prop :=
  ∀ m : Machine, m.Plays s → (m.steps n).Plays s' ∧ ∀ k < n, ¬ m.Stops k

/-- The run of a machine in the scene ends in this way. -/
def Ends (s : Scene) (steps : Nat) (fault : Option Fault) (unread : List RawText)
    (written : RawText) : Prop :=
  ∀ m : Machine, m.Plays s → m.Ends steps fault unread written

variable {s s' s'' : Scene} {i : Instruction} {w : Word} {n k : Nat} {op : Op}

theorem Leads.refl (s : Scene) : Leads 0 s s := fun _ h => ⟨h, by simp⟩

theorem Leads.trans (h : Leads n s s') (h' : Leads k s' s'') : Leads (n + k) s s'' := by
  intro m hm
  obtain ⟨hplays, hstops⟩ := h m hm
  obtain ⟨hplays', hstops'⟩ := h' _ hplays
  rw [steps_add]
  exact ⟨hplays', not_stops_add hstops hstops'⟩

instance : Trans (Leads n) (Leads k) (Leads (n + k)) := ⟨Leads.trans⟩

theorem Leads.ends {fault : Option Fault} {unread : List RawText} {written : RawText} {steps : Nat}
    (h : Leads n s s') (hends : s'.Ends k fault unread written)
    (hsteps : steps = n + k) : s.Ends steps fault unread written := by
  intro m hm
  subst hsteps
  obtain ⟨hplays, hstops⟩ := h m hm
  obtain ⟨m', hfinishes, hleaves⟩ := hends _ hplays
  exact ⟨m', hfinishes.behind hstops, hleaves⟩

/-! ## Rules -/

/-- An instruction leads to a scene if its execution does. -/
theorem Leads.of_execute (hi : s.instruction? = some i)
    (h : ∀ m : Machine, m.Plays { s with pc := s.pc + 1 } →
      ∃ m', m.execute i = (m', none) ∧ m'.Plays s') : Leads 1 s s' := by
  intro m hm
  obtain ⟨m₁, hm₁, hstep⟩ := hm.fetch hi
  obtain ⟨m', hexecute, hplays⟩ := h m₁ hm₁
  rw [hexecute] at hstep
  have hsteps : m.steps 1 = m' := congrArg Prod.fst hstep
  rw [hsteps]
  refine ⟨hplays, fun k hk => ?_⟩
  obtain rfl : k = 0 := by omega
  rw [Stops, hsteps, hplays.running]
  simp [Machine.steps, hstep]

/-- An address in an instruction names itself. -/
theorem ofInt_val (a : Address) : Address.ofInt ((a : Nat) : Int) = a := by
  apply Fin.ext
  show (((a : Nat) : Int) % 4096).toNat = a
  omega

/-- Instructions that put the accumulator and a cell together. -/
theorem Leads.combine (a : Address) {v x : Word} (hi : s.instruction? = some ⟨op, (a : Nat), 0⟩)
    (hv : s.cells[(a : Nat)]? = some v) (hx : op.combine? s.acc v = some x)
    (hnext : s' = { s with pc := s.pc + 1, acc := x }) : Leads 1 s s' := by
  subst hnext
  refine .of_execute hi fun m hm => ⟨m.setAcc x.value, ?_, hm.setAcc x⟩
  have hplace : m.memory.fetch (Address.ofInt (a : Nat)) = v := by
    rw [ofInt_val, hm.cells a v hv]
  have hacc : m.registers.acc = s.acc.value := hm.acc
  cases op <;> cases hx <;> simp only [execute, hplace, hacc]
  · rw [Alu.add_value]
  · rw [Alu.sub_value]

theorem Leads.store (a : Address) (hi : s.instruction? = some ⟨.store, (a : Nat), 0⟩)
    (hnext : s' = { s with pc := s.pc + 1, cells := s.cells.set a s.acc }) :
    Leads 1 s s' := by
  subst hnext
  refine .of_execute hi fun m hm => ⟨_, rfl, ?_⟩
  rw [ofInt_val]
  exact hm.store a

/-- A jump, which is taken or passed. -/
theorem Leads.jump (a : Address) {taken : Bool} (hi : s.instruction? = some ⟨op, (a : Nat), 0⟩)
    (hjumps : op.jumps? s.acc = some taken)
    (hnext : s' = { s with pc := if taken then (a : Nat) else s.pc + 1 }) :
    Leads 1 s s' := by
  subst hnext
  refine .of_execute hi fun m hm => ⟨if taken then m.setPc a else m, ?_, ?_⟩
  · have hacc : m.registers.acc = s.acc.value := hm.acc
    have hzero : s.acc.value = 0 ↔ s.acc = 0 := Word.value_inj (w := 0)
    cases op <;> cases hjumps <;> simp only [execute, ofInt_val, hacc]
    · rfl
    · simp only [beq_iff_eq, hzero]
    · rw [Alu.isNegative_value]
  · cases taken
    · exact hm
    · exact hm.setPc a

/-- An instruction that reads, on a line that says a word. -/
theorem Leads.read (op : Op) (hop : op ∈ [Op.readH, .readC])
    (hcode : s.instruction?.map Instruction.op = some op) {line : RawText} {rest : List RawText}
    (hline : s.unread = line :: rest) (hw : op.typed (RawText.trim line) = .ok w)
    (hnext : s' = { s with pc := s.pc + 1, acc := w, unread := rest }) :
    Leads 1 s s' := by
  subst hnext
  obtain ⟨i, hi, rfl⟩ := Option.map_eq_some_iff.mp hcode
  refine .of_execute hi fun m hm => ?_
  obtain ⟨m', hm', hread⟩ := hm.readInto i.op.promptText i.op.typed
  simp only [hline, List.tail_cons, hw] at hm' hread
  exact ⟨_, (execute_of_reading hop).trans hread, hm'.setAcc w⟩

/-- An instruction that prints. -/
theorem Leads.print (op : Op) (hop : op ∈ [Op.printH, .printC])
    (hcode : s.instruction?.map Instruction.op = some op) {shown : Text}
    (hshown : op.shown s.acc = shown)
    (hnext : s' = { s with
      pc := s.pc + 1
      written := s.written ++ String.ofList (shown ++ ['\n']) }) : Leads 1 s s' := by
  subst hnext
  obtain ⟨i, hi, rfl⟩ := Option.map_eq_some_iff.mp hcode
  refine .of_execute hi fun m hm => ⟨_, ?_, hm.append _⟩
  have hexecute : m.execute i = m.write (i.op.line m.registers.acc) := by
    simp only [List.mem_cons, List.not_mem_nil, or_false] at hop
    rcases hop with h | h <;> rw [execute, h] <;> rfl
  have hline : i.op.line m.registers.acc = String.ofList (shown ++ ['\n']) := by
    rw [hm.acc, ← hshown, ← toList_line hop, String.ofList_toList]
  rw [hexecute, hline, hm.connected.write]

/-! ## Ends -/

/-- A program ends with the first step if its instruction ends it. -/
theorem Ends.of_execute (fault : Option Fault) {unread : List RawText} {written : RawText}
    (hi : s.instruction? = some i)
    (h : ∀ m : Machine, m.Plays { s with pc := s.pc + 1 } →
      ∃ m', m.execute i = (m', fault) ∧ m'.halted = fault.isNone ∧
        m'.input.toRead = unread ∧ m'.output.text = written) :
    s.Ends (fault.elim 1 fun _ => 0) fault unread written := by
  intro m hm
  obtain ⟨m₁, hm₁, hstep⟩ := hm.fetch hi
  obtain ⟨m', hexecute, hhalted, hleaves⟩ := h m₁ hm₁
  rw [hexecute] at hstep
  refine ⟨m', ?_, hhalted, hleaves⟩
  cases fault with
  | none => exact .halted hstep hhalted
  | some fault => exact .faulted hstep

theorem ends_halt (hcode : s.instruction?.map Instruction.op = some .halt) :
    s.Ends 1 none s.unread s.written := by
  obtain ⟨⟨op, operand, spare⟩, hi, rfl⟩ := Option.map_eq_some_iff.mp hcode
  exact Ends.of_execute none hi fun m hm => ⟨_, rfl, rfl, hm.unread, hm.written⟩

/-- A program that ends by printing a cell: it loads it, prints it and halts. -/
theorem ends_printed (a : Address) {v : Word}
    (hload : s.instruction? = some ⟨.load, (a : Nat), 0⟩) (hv : s.cells[(a : Nat)]? = some v)
    (hprint : { s with pc := s.pc + 1 }.instruction?.map Instruction.op = some .printH)
    (hhalt : { s with pc := s.pc + 2 }.instruction?.map Instruction.op = some .halt) :
    s.Ends 3 none s.unread (s.written ++ Table.wordLine v.toNat) := by
  have hleads := calc
    Leads 1 s { s with pc := s.pc + 1, acc := v } := .combine a hload hv rfl rfl
    Leads 1 _ { s with
        pc := s.pc + 2, acc := v, written := s.written ++ Table.wordLine v.toNat } :=
      .print .printH (by decide) hprint rfl rfl
  exact hleads.ends (ends_halt hhalt) rfl

/-- An instruction that reads, on a line that says no word. -/
theorem ends_refused (op : Op) (hop : op ∈ [Op.readH, .readC])
    (hcode : s.instruction?.map Instruction.op = some op) {line : RawText} {rest : List RawText}
    {fault : Fault} (hline : s.unread = line :: rest)
    (hfault : op.typed (RawText.trim line) = .error fault) :
    s.Ends 0 (some fault) rest s.written := by
  obtain ⟨i, hi, rfl⟩ := Option.map_eq_some_iff.mp hcode
  refine Ends.of_execute (some _) hi fun m hm => ?_
  obtain ⟨m', hm', hread⟩ := hm.readInto i.op.promptText i.op.typed
  simp only [hline, List.tail_cons, hfault] at hm' hread
  exact ⟨m', (execute_of_reading hop).trans hread, hm'.running, hm'.unread, hm'.written⟩

/-- An instruction that reads where nothing is left. -/
theorem ends_unanswered (op : Op) (hop : op ∈ [Op.readH, .readC])
    (hcode : s.instruction?.map Instruction.op = some op) (hline : s.unread = []) :
    s.Ends 0 (some .inputEnded) [] s.written := by
  obtain ⟨i, hi, rfl⟩ := Option.map_eq_some_iff.mp hcode
  refine Ends.of_execute (some _) hi fun m hm => ?_
  obtain ⟨m', hm', hread⟩ := hm.readInto i.op.promptText i.op.typed
  simp only [hline, List.tail_nil] at hm' hread
  exact ⟨m', (execute_of_reading hop).trans hread, hm'.running, hm'.unread, hm'.written⟩

end Scene

/-! ## Words that are typed -/

/-- A line that says a number to an operation says a word. -/
theorem Op.Says.typed_ofNat {op : Op} {line : RawText} {n : Nat} (h : op.Says line n) :
    n < 65536 ∧ op.typed (RawText.trim line) = .ok (BitVec.ofNat 16 n) := by
  obtain ⟨w, hw, hvalue⟩ := h
  obtain rfl : w.toNat = n := Int.ofNat_inj.mp hvalue
  refine ⟨w.isLt, ?_⟩
  rw [BitVec.ofNat_toNat, BitVec.setWidth_eq]
  exact hw

/-! ## From the source on -/

/-- The source that consists of some lines. -/
def Source.ofLines (lines : List String) : Source := .text (Text.unlines (lines.map String.toList))

/-- The program of a source, loaded into a machine without prompts, ends in this way on some
streams. -/
def Source.Ends (source : Source) (input : Input) (output : Output) (steps : Nat)
    (fault : Option Fault) (unread : List RawText) (written : RawText) : Prop :=
  ∃ p memory, Assembly.assemble source = .ok p ∧ Memory.loadWords p.words = .ok memory ∧
    Machine.Ends { memory, input, output, prompting := false } steps fault unread written

theorem Source.ends_of_words {source : Source} {ws : List Word}
    (hwords : (Assembly.assemble source).toOption.map Assembly.Program.words = some ws)
    (hfits : ws.length ≤ 4096) {input : Input} {output : Output} (hinput : input.Works)
    (houtput : output.mode = .works) {steps : Nat} {fault : Option Fault} {unread : List RawText}
    {written : RawText}
    (h : Scene.Ends ⟨0, 0, ws, input.toRead, output.text⟩ steps fault unread written) :
    source.Ends input output steps fault unread written := by
  rw [Option.map_eq_some_iff] at hwords
  obtain ⟨p, hp, rfl⟩ := hwords
  refine ⟨p, Memory.ofWords p.words hfits, ?_, dif_pos hfits, ?_⟩
  · cases hassemble : Assembly.assemble source with
    | error error =>
        rw [hassemble] at hp
        cases hp
    | ok p' =>
        rw [hassemble] at hp
        exact congrArg Except.ok (Option.some.inj hp)
  · exact h _ (Machine.plays_ofWords hfits hinput houtput)

end IttyBitty
