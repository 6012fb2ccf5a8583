import IttyBitty.Proofs.Samples.Rules

/-!
# The sample that echoes

The program reads one character after another and prints it, until it has printed a full
stop. It takes five steps for each character, whatever the input holds, and what stands
behind the full stop is not read (`Echo.echoes_until_stop`). A line that says no character
ends it with a fault of user input, unless a surrogate in the line keeps it from being
encoded: then the fault is of no such kind (`Echo.ends_unencodable`).
-/

namespace IttyBitty.Echo

/-- The source of the program. -/
def source : Source := .ofLines [
  "// Echo characters until '.' is read",
  "        jmp     loop",
  "dot:    dw      002e",
  "loop:   readC",
  "        printC",
  "        sub     dot",
  "        jmpe    done",
  "        jmp     loop",
  "done:   halt"]

/-- The words of the program. -/
def cells : List Word := [0xC002, 0x002E, 0x1400, 0x1C00, 0x6001, 0xD007, 0xC002, 0x0000]

theorem words_source :
    (Assembly.assemble source).toOption.map Assembly.Program.words = some cells := by
  simp only [source, Source.ofLines, List.map_cons, List.map_nil]
  -- a line is replaced by its characters, because decoding it would take far longer
  repeat rw [String.toList_ofList]
  rfl

/-- A line says a character: it holds this one alone, between blanks, and it is ASCII. -/
def Says (line : RawText) (c : Char) : Prop :=
  RawText.trim line = [.char c] ∧ c.toNat < 128

/-- Characters with a line feed behind each. -/
def onLines (chars : List Char) : String := String.ofList (chars.flatMap ([·, '\n']))

variable {line : RawText} {lines rest : List RawText} {c : Char} {chars : List Char} {acc : Word}
  {written : RawText}

theorem onLines_append (chars more : List Char) :
    onLines (chars ++ more) = onLines chars ++ onLines more := by
  rw [onLines, List.flatMap_append, String.ofList_append]
  rfl

theorem Says.typed (h : Says line c) :
    Op.readC.typed (RawText.trim line) = .ok (BitVec.ofNat 16 c.toNat) := by
  rw [h.1]
  exact if_pos h.2

/-- A line that says no character is refused as the table of instructions has it. -/
theorem typed_refused (h : ∀ c, ¬ Says line c) :
    Op.readC.typed (RawText.trim line) = .error (Table.characterRefusal (RawText.trim line)) := by
  simp only [Says] at h
  have hnone : Table.typedCharacter (RawText.trim line) = none := by
    generalize RawText.trim line = text at h
    match text with
    | [.char c] => exact if_neg fun hc => h c ⟨rfl, by omega⟩
    | [] | [.surrogate _] | .surrogate _ :: _ :: _ | .char _ :: _ :: _ => rfl
  have htyped := Machine.typedCharacter_eq (RawText.trim line)
  rw [hnone] at htyped
  show Machine.typedCharacter (RawText.trim line) = _
  cases hvalue : Machine.typedCharacter (RawText.trim line) with
  | ok w =>
      rw [hvalue] at htyped
      cases htyped
  | error fault =>
      rw [hvalue] at htyped
      cases htyped
      rfl

theorem not_says_of_unencodable (h : RawText.text? (RawText.trim line) = none) (c : Char) :
    ¬ Says line c := by
  intro hc
  rw [hc.1] at h
  cases h

theorem Says.shown (h : Says line c) :
    Op.printC.shown (BitVec.ofNat 16 c.toNat) = [c] := by
  have hc : c.toNat % 2 ^ 16 % 256 = c.toNat := by
    have := h.2
    omega
  show [Char.ofNat (c.toNat % 2 ^ 16 % 256)] = [c]
  rw [hc, Char.ofNat_toNat]

theorem Says.sub_eq_zero_iff (h : Says line c) :
    BitVec.ofNat 16 c.toNat - 0x002E = 0 ↔ c = '.' := by
  have hc := h.2
  rw [← BitVec.toNat_inj, BitVec.toNat_sub, BitVec.toNat_ofNat, ← Char.toNat_inj]
  show (2 ^ 16 - 46 + c.toNat % 2 ^ 16) % 2 ^ 16 = 0 ↔ c.toNat = 46
  omega

/-! ## Turns -/

/-- The program at one of its instructions. -/
def scene (pc : Nat) (acc : Word) (unread : List RawText) (written : RawText) : Scene :=
  ⟨pc, acc, cells, unread, written⟩

open Scene

/-- A character is read, printed and compared with the full stop. -/
theorem leads_compared (h : Says line c) :
    Leads 3 (scene 2 acc (line :: rest) written)
      (scene 5 (BitVec.ofNat 16 c.toNat - 0x002E) rest (written ++ onLines [c])) := calc
  Leads 1 (scene 2 acc (line :: rest) written)
      (scene 3 (BitVec.ofNat 16 c.toNat) rest written) :=
    .read .readC (by decide) rfl rfl h.typed rfl
  Leads 1 _ (scene 4 (BitVec.ofNat 16 c.toNat) rest (written ++ onLines [c])) :=
    .print .printC (by decide) rfl h.shown rfl
  Leads 1 _ (scene 5 (BitVec.ofNat 16 c.toNat - 0x002E) rest (written ++ onLines [c])) :=
    .combine 1 rfl rfl rfl rfl

/-- Any other character leads back to the next one. -/
theorem leads_turn (h : Says line c) (hother : c ≠ '.') :
    Leads 5 (scene 2 acc (line :: rest) written)
      (scene 2 (BitVec.ofNat 16 c.toNat - 0x002E) rest (written ++ onLines [c])) := calc
  Leads 3 (scene 2 acc (line :: rest) written)
      (scene 5 (BitVec.ofNat 16 c.toNat - 0x002E) rest (written ++ onLines [c])) :=
    leads_compared h
  Leads 1 _ (scene 6 (BitVec.ofNat 16 c.toNat - 0x002E) rest (written ++ onLines [c])) :=
    .jump 7 rfl (congrArg some (beq_eq_false_iff_ne.mpr (mt h.sub_eq_zero_iff.mp hother))) rfl
  Leads 1 _ (scene 2 (BitVec.ofNat 16 c.toNat - 0x002E) rest (written ++ onLines [c])) :=
    .jump 2 rfl rfl rfl

/-- All characters in front of the full stop are printed. -/
theorem leads_turns (h : List.Forall₂ Says lines chars) (hother : '.' ∉ chars) (acc : Word)
    (rest : List RawText) (written : RawText) :
    ∃ acc', Leads (5 * chars.length) (scene 2 acc (lines ++ rest) written)
      (scene 2 acc' rest (written ++ onLines chars)) := by
  -- each turn leaves some accumulator, which the next one does not look at
  induction h generalizing acc written with
  | nil =>
      refine ⟨acc, ?_⟩
      have hnil : written ++ onLines [] = written := by simp [onLines]
      rw [hnil]
      exact .refl _
  | @cons line c lines chars hheard _ ih =>
      rw [List.mem_cons, not_or] at hother
      obtain ⟨acc', hturns⟩ :=
        ih hother.2 (BitVec.ofNat 16 c.toNat - 0x002E) (written ++ onLines [c])
      rw [List.append_assoc, ← RawText.ofString_append, ← onLines_append] at hturns
      refine ⟨acc', ?_⟩
      rw [List.length_cons, Nat.mul_succ, Nat.add_comm]
      exact (leads_turn hheard (Ne.symm hother.1)).trans hturns

/-! ## Ends -/

/-- The program comes behind the characters to where it reads the next line. -/
theorem leads_heard (h : List.Forall₂ Says lines chars) (hother : '.' ∉ chars)
    (rest : List RawText) (written : RawText) :
    ∃ acc, Leads (5 * chars.length + 1) (scene 0 0 (lines ++ rest) written)
      (scene 2 acc rest (written ++ onLines chars)) := by
  obtain ⟨acc, hturns⟩ := leads_turns h hother 0 rest written
  have hstart : Leads 1 (scene 0 0 (lines ++ rest) written) (scene 2 0 (lines ++ rest) written) :=
    .jump 2 rfl rfl rfl
  refine ⟨acc, ?_⟩
  rw [Nat.add_comm]
  exact hstart.trans hturns

/-- A full stop is printed and ends the program, and nothing behind it is read. -/
theorem ends_stopped (h : List.Forall₂ Says lines chars) (hother : '.' ∉ chars)
    (hstop : Says line '.') :
    (scene 0 0 (lines ++ line :: rest) written).Ends (5 * chars.length + 6) none rest
      (written ++ onLines (chars ++ ['.'])) := by
  obtain ⟨acc, hheard⟩ := leads_heard h hother (line :: rest) written
  rw [onLines_append, RawText.ofString_append, ← List.append_assoc]
  have hleads := calc
    Leads (5 * chars.length + 1) (scene 0 0 (lines ++ line :: rest) written)
      (scene 2 acc (line :: rest) (written ++ onLines chars)) := hheard
    Leads 3 _ (scene 5 0 rest (written ++ onLines chars ++ onLines ['.'])) :=
      leads_compared hstop
    Leads 1 _ (scene 7 0 rest (written ++ onLines chars ++ onLines ['.'])) := .jump 7 rfl rfl rfl
  exact hleads.ends (ends_halt rfl) rfl

/-- A line that says no character is refused. -/
theorem ends_refused (h : List.Forall₂ Says lines chars) (hother : '.' ∉ chars)
    (hline : ∀ c, ¬ Says line c) :
    (scene 0 0 (lines ++ line :: rest) written).Ends (5 * chars.length + 1)
      (some (Table.characterRefusal (RawText.trim line))) rest (written ++ onLines chars) := by
  obtain ⟨acc, hheard⟩ := leads_heard h hother (line :: rest) written
  exact hheard.ends (Scene.ends_refused .readC (by decide) rfl rfl (typed_refused hline)) rfl

theorem ends_unanswered (h : List.Forall₂ Says lines chars) (hother : '.' ∉ chars) :
    (scene 0 0 lines written).Ends (5 * chars.length + 1) (some .inputEnded) []
      (written ++ onLines chars) := by
  obtain ⟨acc, hheard⟩ := leads_heard h hother [] written
  rw [List.append_nil] at hheard
  exact hheard.ends (Scene.ends_unanswered .readC (by decide) rfl rfl) rfl

/-! ## From the source on -/

variable {input : Input} {output : Output}

theorem ends_of_scene {steps : Nat} {fault : Option Fault} (hinput : input.Works)
    (houtput : output.mode = .works)
    (h : (scene 0 0 input.toRead output.text).Ends steps fault rest written) :
    source.Ends input output steps fault rest written :=
  Source.ends_of_words words_source (by decide) hinput houtput h

/-- How the program ends on an input that starts with lines which say some characters. -/
structure Echoes (input : Input) (output : Output) (lines : List RawText) (chars : List Char) :
    Prop where
  /-- Behind a full stop it has halted, and exactly the lines behind that are left; -/
  stopped : ∀ line rest, Says line '.' → input.toRead = lines ++ line :: rest →
    source.Ends input output (5 * chars.length + 6) none rest
      (output.text ++ onLines (chars ++ ['.']))
  /-- a line of characters that says none is a fault of user input, -/
  refused : ∀ line rest, (∀ c, ¬ Says line c) → (RawText.text? (RawText.trim line)).isSome →
    input.toRead = lines ++ line :: rest →
      source.Ends input output (5 * chars.length + 1)
        (some (.notOneCharacter (RawText.trim line))) rest (output.text ++ onLines chars)
  /-- a line with a surrogate in it cannot be encoded, -/
  unencodable : ∀ line rest, RawText.text? (RawText.trim line) = none →
    input.toRead = lines ++ line :: rest →
      source.Ends input output (5 * chars.length + 1)
        (some (.unencodable (RawText.trim line))) rest (output.text ++ onLines chars)
  /-- and the end of the input is one of the streams. -/
  unanswered : input.toRead = lines →
    source.Ends input output (5 * chars.length + 1) (some .inputEnded) []
      (output.text ++ onLines chars)

/-- **The program echoes the characters in front of the first full stop**, whatever comes
behind them. -/
theorem echoes_until_stop (hinput : input.Works) (houtput : output.mode = .works)
    (hheard : List.Forall₂ Says lines chars) (hother : '.' ∉ chars) :
    Echoes input output lines chars where
  stopped line rest hstop htoRead := by
    refine ends_of_scene hinput houtput ?_
    rw [htoRead]
    exact ends_stopped hheard hother hstop
  refused line rest hline hchars htoRead := by
    refine ends_of_scene hinput houtput ?_
    have hends := @ends_refused line lines rest chars output.text hheard hother hline
    rwa [Table.characterRefusal, if_pos hchars, ← htoRead] at hends
  unencodable line rest hnone htoRead := by
    refine ends_of_scene hinput houtput ?_
    have hends := @ends_refused line lines rest chars output.text hheard hother
      (not_says_of_unencodable hnone)
    rwa [Table.characterRefusal, if_neg (by rw [hnone]; decide), ← htoRead] at hends
  unanswered htoRead := by
    refine ends_of_scene hinput houtput ?_
    rw [htoRead]
    exact ends_unanswered hheard hother

/-- Two characters and a full stop, with a line behind them that is not read. -/
theorem echoes_until_stop_greeting :
    let input : Input := .ofText "h\n i \n.\nnot read\n"
    let lines : List RawText := ["h\n", " i \n"]
    input.Works ∧ List.Forall₂ Says lines ['h', 'i'] ∧ '.' ∉ ['h', 'i'] ∧
      source.Ends input {} 16 none ["not read\n"] "h\ni\n.\n" := by
  have hworks := Input.works_ofText "h\n i \n.\nnot read\n"
  have hheard : List.Forall₂ Says ["h\n", " i \n"] ['h', 'i'] :=
    .cons ⟨by decide, by decide⟩ (.cons ⟨by decide, by decide⟩ .nil)
  have hechoes : Echoes _ {} _ _ := echoes_until_stop hworks rfl hheard (by decide)
  have hends := hechoes.stopped ".\n" ["not read\n"] ⟨by decide, by decide⟩
    (by decide)
  exact ⟨hworks, hheard, by decide, hends⟩

/-- On a line that is a surrogate the program ends with a fault that is none of user input. -/
theorem ends_unencodable :
    let line : RawText := [.surrogate 0, .char '\n']
    ∃ fault, (∀ c, ¬ Says line c) ∧ fault.isUserInput = false ∧
      source.Ends (.ofText line) {} 1 (some fault) [] "" := by
  have hsays := @not_says_of_unencodable [.surrogate 0, .char '\n'] rfl
  exact ⟨.unencodable [.surrogate 0], hsays, rfl,
    ends_of_scene (Input.works_ofText _) rfl (ends_refused .nil (by decide) hsays)⟩

/-- Lines say characters up to the full stop, a line that says none, or the end. -/
theorem exists_heard (lines : List RawText) :
    ∃ heard chars, List.Forall₂ Says heard chars ∧ '.' ∉ chars ∧
      (lines = heard ∨ ∃ line rest, lines = heard ++ line :: rest ∧
        (Says line '.' ∨ ∀ c, ¬ Says line c)) := by
  induction lines with
  | nil => exact ⟨[], [], .nil, by simp, .inl rfl⟩
  | cons line lines ih =>
      by_cases hfirst : ∃ c, Says line c ∧ c ≠ '.'
      · obtain ⟨c, hc, hother⟩ := hfirst
        obtain ⟨heard, chars, hheard, hchars, hlines⟩ := ih
        refine ⟨line :: heard, c :: chars, .cons hc hheard, ?_, ?_⟩
        · simp [hchars, Ne.symm hother]
        · rcases hlines with rfl | ⟨next, rest, rfl, hnext⟩
          · exact .inl rfl
          · exact .inr ⟨next, rest, rfl, hnext⟩
      · refine ⟨[], [], .nil, by simp, .inr ⟨line, lines, rfl, ?_⟩⟩
        by_cases hstop : Says line '.'
        · exact .inl hstop
        · refine .inr fun c hc => hfirst ⟨c, hc, ?_⟩
          rintro rfl
          exact hstop hc

/-- The program ends on every input. -/
theorem exists_ends (hinput : input.Works) (houtput : output.mode = .works) :
    ∃ steps fault unread written, source.Ends input output steps fault unread written := by
  obtain ⟨heard, chars, hheard, hother, hlines⟩ := exists_heard input.toRead
  have hends {steps fault unread written}
      (h : (scene 0 0 input.toRead output.text).Ends steps fault unread written) :
      ∃ steps fault unread written, source.Ends input output steps fault unread written :=
    ⟨_, _, _, _, ends_of_scene hinput houtput h⟩
  rcases hlines with htoRead | ⟨line, rest, htoRead, hstop | hline⟩
  · rw [htoRead] at hends
    exact hends (ends_unanswered hheard hother)
  · rw [htoRead] at hends
    exact hends (ends_stopped hheard hother hstop)
  · rw [htoRead] at hends
    exact hends (ends_refused hheard hother hline)

end IttyBitty.Echo
