import IttyBitty.Proofs.Debugger.Outcomes
import IttyBitty.Proofs.Machine.Answers

/-!
# Sessions as conversations

A session goes in rounds. In each the shell prompts, takes one line, carries it out and
reports its error, if it has one; meanwhile the machine takes the lines that answer its
reading instructions. The session closes at the first line that asks to quit, or where the
lines end. Every line that is gone was heard once and in order, by the shell or by the
machine, also if both listen to one input. Where the shell prints is another matter, and
makes no difference to what is heard.

Every error in it is one that the shell answers. That leaves out a machine that reads a
line for a character with a surrogate in it.
-/

namespace IttyBitty.Debugger

open Machine

variable {d d' d'' d₁ d₂ : Debugger} {prompt : RawText}

/-! ## Keyboard and screen -/

/-- The input that commands come from. -/
def commands (d : Debugger) : Input :=
  match d.keyboard with
  | .own commands => commands
  | .ofMachine => d.machine.input

/-- What has been written where the debugger prints. -/
def printed (d : Debugger) : RawText :=
  match d.screen with
  | .own printed => printed
  | .ofMachine => d.machine.output.text

theorem readLine_reading (d : Debugger) : d.readLine.1 = d.commands.readLine.1 := by
  obtain ⟨machine, _ | _, screen, history⟩ := d <;> rfl

theorem readLine_commands (d : Debugger) : d.readLine.2.commands = d.commands.readLine.2 := by
  obtain ⟨machine, _ | _, screen, history⟩ := d <;> rfl

theorem readLine_printed (d : Debugger) : d.readLine.2.printed = d.printed := by
  obtain ⟨machine, _ | _, _ | _, history⟩ := d <;> rfl

/-- A line can be read of commands that work, or there is none. -/
theorem readLine_of_works (h : d.commands.Works) :
    d.readLine.1 ≠ .failed ∧ (d.readLine.1 = .ended → d.readLine.2.commands.unread = []) := by
  rw [readLine_reading, readLine_commands]
  obtain ⟨rest, -, hunread, hread⟩ := h.readLine
  rw [hread]
  by_cases hnil : d.commands.unread = []
  · rw [if_pos hnil]
    refine ⟨nofun, fun _ => ?_⟩
    rw [hunread, hnil]
    rfl
  · rw [if_neg hnil]
    exact ⟨nofun, nofun⟩

/-! ## What passes between two states -/

/-- A line that has been heard, by the shell or by the machine. -/
inductive Heard
  | command (line : RawText)
  | answer (line : RawText)
  deriving DecidableEq, Repr

namespace Heard

/-- The line, whoever heard it. -/
def line : Heard → RawText
  | command t | answer t => t

/-- The line that the shell heard. -/
def command? : Heard → Option RawText
  | command t => some t
  | answer _ => none

/-- The line that the machine heard. -/
def answer? : Heard → Option RawText
  | command _ => none
  | answer t => some t

theorem filterMap_command?_cons (t : RawText) (heard : List Heard) :
    (command t :: heard).filterMap command? = t :: heard.filterMap command? := rfl

@[simp] theorem filterMap_command?_answers (lines : List RawText) :
    (lines.map answer).filterMap command? = [] := by
  simp [List.filterMap_map, Function.comp_def, command?]

@[simp] theorem filterMap_answer?_answers (lines : List RawText) :
    (lines.map answer).filterMap answer? = lines := by
  simp [List.filterMap_map, Function.comp_def, answer?]

@[simp] theorem map_line_answers (lines : List RawText) : (lines.map answer).map line = lines := by
  simp [Function.comp_def, line]

end Heard

/-- The first debugger has become the second: the lines have been heard in this order, and
the text has been printed. Commands and answers come from one input in turn if the debugger
shares the input of its machine, and each from an input of their own if not. -/
structure Passed (d : Debugger) (heard : List Heard) (text : RawText) (d' : Debugger) : Prop where
  keyboard : d'.keyboard = .ofMachine ↔ d.keyboard = .ofMachine
  works : d.commands.Works → d'.commands.Works
  printed : d'.printed = d.printed ++ text
  shared : d.keyboard = .ofMachine → d.commands.Works →
    d.commands.toRead = heard.map Heard.line ++ d'.commands.toRead
  own : d.keyboard ≠ .ofMachine → d.commands.Works →
    d.commands.toRead = heard.filterMap Heard.command? ++ d'.commands.toRead
  answers : d.keyboard ≠ .ofMachine → d.machine.input.Works → d'.machine.input.Works ∧
    d.machine.input.toRead = heard.filterMap Heard.answer? ++ d'.machine.input.toRead

theorem Passed.refl (d : Debugger) : d.Passed [] [] d :=
  ⟨Iff.rfl, id, (List.append_nil _).symm, fun _ _ => rfl, fun _ _ => rfl, fun _ h => ⟨h, rfl⟩⟩

theorem Passed.trans {heard heard' : List Heard} {text text' : RawText}
    (h : d.Passed heard text d') (h' : d'.Passed heard' text' d'') :
    d.Passed (heard ++ heard') (text ++ text') d'' where
  keyboard := h'.keyboard.trans h.keyboard
  works hd := h'.works (h.works hd)
  printed := by rw [h'.printed, h.printed, List.append_assoc]
  shared hkeyboard hd := by
    rw [h.shared hkeyboard hd, h'.shared (h.keyboard.mpr hkeyboard) (h.works hd), List.map_append,
      List.append_assoc]
  own hkeyboard hd := by
    rw [h.own hkeyboard hd, h'.own (mt h.keyboard.mp hkeyboard) (h.works hd),
      List.filterMap_append, List.append_assoc]
  answers hkeyboard hm := by
    obtain ⟨hworks, hread⟩ := h.answers hkeyboard hm
    obtain ⟨hworks', hread'⟩ := h'.answers (mt h.keyboard.mp hkeyboard) hworks
    refine ⟨hworks', ?_⟩
    rw [hread, hread', List.filterMap_append, List.append_assoc]

/-- What enters the history does not matter. -/
theorem Passed.remember {heard : List Heard} {text : RawText} (h : d.Passed heard text d')
    (history : Array (RawText × List RawText)) : d.Passed heard text { d' with history } :=
  ⟨h.keyboard, h.works, h.printed, h.shared, h.own, h.answers⟩

theorem passed_print (d : Debugger) (text : RawText) : d.Passed [] text (d.print text) := by
  obtain ⟨machine, _ | _, _ | _, history⟩ := d <;>
    exact ⟨by simp, id, rfl, fun _ _ => rfl, fun _ _ => rfl, fun _ h => ⟨h, rfl⟩⟩

/-- A line that is read is heard by the shell. -/
theorem passed_readLine (d : Debugger) :
    d.Passed (d.readLine.1.line?.map Heard.command).toList [] d.readLine.2 := by
  have hworks {input : Input} (h : input.Works) : input.readLine.2.Works := by
    obtain ⟨rest, hrest, -, hread⟩ := h.readLine
    rw [hread]
    exact hrest
  have hcommands (reading : Reading) :
      (reading.line?.map Heard.command).toList.filterMap Heard.command? =
        reading.line?.toList ∧
      (reading.line?.map Heard.command).toList.map Heard.line = reading.line?.toList ∧
      (reading.line?.map Heard.command).toList.filterMap Heard.answer? = [] := by
    cases reading <;> exact ⟨rfl, rfl, rfl⟩
  obtain ⟨hcommand, hline, hanswer⟩ := hcommands d.readLine.1
  rw [readLine_reading] at hcommand hline hanswer
  have hprinted : d.readLine.2.printed = d.printed ++ [] := by
    rw [readLine_printed, List.append_nil]
  obtain ⟨machine, commands | _, screen, history⟩ := d
  · refine ⟨by simp [readLine], hworks, hprinted, nofun, fun _ h => ?_, fun _ h => ⟨h, ?_⟩⟩
    · exact h.toRead.trans (congrArg (· ++ _) hcommand.symm)
    · exact (congrArg (· ++ _) hanswer).symm
  · refine ⟨by simp [readLine], hworks, hprinted, fun _ h => ?_, fun h => absurd rfl h,
      fun h => absurd rfl h⟩
    exact h.toRead.trans (congrArg (· ++ _) hline.symm)

/-- The machine hears the answers to its steps. What it writes is printed if the debugger
prints on its output. -/
theorem passed_steps (d : Debugger) (n : Nat) :
    ∃ text, d.Passed ((d.machine.answers n).map Heard.answer) text
      { d with machine := d.machine.steps n } := by
  have hexchanges := d.machine.exchanges_steps n
  obtain ⟨text, hprinted⟩ : ∃ text : RawText,
      ({ d with machine := d.machine.steps n } : Debugger).printed = d.printed ++ text := by
    obtain ⟨machine, keyboard, _ | _, history⟩ := d
    · exact ⟨[], (List.append_nil _).symm⟩
    · exact hexchanges.written
  refine ⟨text, ?_⟩
  obtain ⟨machine, commands | _, screen, history⟩ := d
  · refine ⟨Iff.rfl, id, hprinted, nofun, fun _ _ => ?_, fun _ h => ⟨hexchanges.works h, ?_⟩⟩
    · rw [Heard.filterMap_command?_answers]
      rfl
    · rw [Heard.filterMap_answer?_answers]
      exact hexchanges.taken h
  · refine ⟨Iff.rfl, hexchanges.works, hprinted, fun _ h => ?_, fun h => absurd rfl h,
      fun h => absurd rfl h⟩
    rw [Heard.map_line_answers]
    exact hexchanges.taken h

/-- **While a line is carried out, nothing is heard but the answers** to the steps that it
asks for. -/
theorem Obeyed.passed {bound : Nat} {wanted : Demand} {r : Debugger × Outcome}
    (h : Obeyed bound d wanted r) (hfinished : r.2 ≠ .unfinished) :
    ∃ n text, Takes d.machine wanted n ∧
      d.Passed ((d.machine.answers n).map Heard.answer) text r.1 := by
  obtain ⟨n, text, history, htakes, heq⟩ := h.behind hfinished
  obtain ⟨text', hsteps⟩ := d.passed_steps n
  refine ⟨n, text' ++ text, htakes, ?_⟩
  have hprint := hsteps.trans (passed_print _ text)
  rw [List.append_nil] at hprint
  rw [heq]
  exact hprint.remember history

/-! ## Rounds -/

/-- What came of one line of commands: the answers that the machine read, the text that was
printed, and the error. -/
structure Round where
  line : RawText
  answers : List RawText
  text : RawText
  error : Option Error

namespace Round

/-- How the line ends. -/
def outcome (r : Round) : Outcome := r.error.elim .continues .failed

theorem outcome_ne (r : Round) : r.outcome ≠ .quits ∧ r.outcome ≠ .unfinished := by
  obtain ⟨line, answers, text, _ | error⟩ := r <;> exact ⟨nofun, nofun⟩

/-- The error as the shell prints it. -/
def report (r : Round) : RawText :=
  r.error.elim [] fun error => "error: " ++ error.message ++ "\n"

/-- The lines that are heard in the round. -/
def heard (r : Round) : List Heard := .command r.line :: r.answers.map .answer

/-- All that is printed in a round. -/
def shown (prompt : RawText) (r : Round) : RawText := prompt ++ r.text ++ r.report

end Round

/-- **A round of a session**: the shell prompts and reads the line, carries it out, and
reports what went wrong, which is something that it answers. The machine takes the steps
that the line asks for; the answers are theirs. -/
inductive Turn (prompt : RawText) (d : Debugger) (r : Round) : Debugger → Prop
  | intro {d₁ d₂ : Debugger} {n least : Nat}
      (hread : (d.print prompt).readLine = (.line r.line, d₁))
      (htakes : Takes d₁.machine (demand r.line) n)
      (hanswers : r.answers = d₁.machine.answers n)
      (hline : ∀ bound ≥ least, d₁.executeLine bound r.line = (d₂, r.outcome))
      (hanswered : ∀ error, r.error = some error → error.escape? = none)
      (htext : d₂.printed = d₁.printed ++ r.text) :
      Turn prompt d r (d₂.print r.report)

variable {r : Round}

/-- Some of the lines are gone when a command has been heard. -/
theorem Passed.length_lt {line : RawText} {heard : List Heard} {text : RawText}
    (h : d.Passed (.command line :: heard) text d') (hworks : d.commands.Works) :
    d'.commands.toRead.length < d.commands.toRead.length := by
  by_cases hkeyboard : d.keyboard = .ofMachine
  · rw [h.shared hkeyboard hworks, List.map_cons, List.length_append, List.length_cons]
    omega
  · rw [h.own hkeyboard hworks, Heard.filterMap_command?_cons, List.length_append,
      List.length_cons]
    omega

/-- The next line makes the machine read a line for a character, and that one holds a
surrogate. -/
inductive Garbled (prompt : RawText) (d : Debugger) : Prop
  | intro {line answer : RawText} {d₁ : Debugger} {k : Nat}
      (hread : (d.print prompt).readLine = (.line line, d₁))
      (htakes : Takes d₁.machine (demand line) (k + 1))
      (hop : (d₁.machine.steps k).nextOp = some .readC)
      (hanswer : (d₁.machine.steps k).answer? = some answer)
      (hnone : RawText.text? (RawText.trim answer) = none) : Garbled prompt d

/-- An error that the shell does not answer is of a machine that has read a surrogate. -/
theorem garbled_of_escape {line : RawText} {bound : Nat} {error : Error} {fault : Fault}
    (hread : (d.print prompt).readLine = (.line line, d₁))
    (herror : (d₁.executeLine bound line).2 = .failed error)
    (hescape : error.escape? = some fault) : Garbled prompt d := by
  obtain ⟨rfl, hown⟩ := Error.of_escape? hescape
  rcases (d₁.obeyed bound line).of_fault herror with ⟨pc, rfl⟩ | ⟨k, htakes, hfault⟩
  · cases hown
  · obtain ⟨hop, answer, hanswer, hnone⟩ := step_of_not_own hfault hown
    exact .intro hread htakes hop hanswer hnone

/-- A line that does not quit makes a round if it comes to an end, unless the machine reads
a surrogate. -/
theorem exists_turn {line : RawText} {bound : Nat}
    (hread : (d.print prompt).readLine = (.line line, d₁)) (hstays : ¬ AsksToQuit line)
    (hfinished : (d₁.executeLine bound line).2 ≠ .unfinished) :
    (∃ r d', r.line = line ∧ Turn prompt d r d') ∨ Garbled prompt d := by
  obtain ⟨n, text, htakes, hpassed⟩ := (d₁.obeyed bound line).passed hfinished
  have herror : ∃ error : Option Error,
      (d₁.executeLine bound line).2 = error.elim .continues .failed := by
    have hends := ends_executeLine hstays bound d₁
    generalize (d₁.executeLine bound line).2 = outcome at hends hfinished
    cases hends with
    | continues => exact ⟨none, rfl⟩
    | refused error => exact ⟨some (.command error), rfl⟩
    | outside pc => exact ⟨some (.fault (.outOfBounds pc)), rfl⟩
    | @faulted _ fault _ => exact ⟨some (.fault fault), rfl⟩
    | unfinished => exact absurd rfl hfinished
  obtain ⟨error, herror⟩ := herror
  by_cases hanswered : ∀ e, error = some e → e.escape? = none
  case neg =>
    obtain ⟨e, he, hescape⟩ : ∃ e, error = some e ∧ e.escape? ≠ none := by
      simpa using hanswered
    obtain ⟨fault, hfault⟩ := Option.ne_none_iff_exists'.mp hescape
    rw [he] at herror
    exact .inr (garbled_of_escape hread herror hfault)
  let r : Round := ⟨line, d₁.machine.answers n, text, error⟩
  have hline : ∀ bound' ≥ bound, d₁.executeLine bound' line =
      ((d₁.executeLine bound line).1, r.outcome) := by
    intro bound' hle
    rw [executeLine_of_le hfinished hle]
    exact Prod.ext rfl herror
  exact .inl ⟨r, _, rfl, .intro hread htakes rfl hline hanswered hpassed.printed⟩

/-- In a round the shell hears its line and the machine the answers, and nothing else. -/
theorem Turn.passed (h : Turn prompt d r d') : d.Passed r.heard (r.shown prompt) d' := by
  cases h with
  | @intro d₁ d₂ n least hread htakes hanswers hline _ htext =>
      have hheard : (d.print prompt).Passed [.command r.line] [] d₁ := by
        have hpassed := (d.print prompt).passed_readLine
        rw [hread] at hpassed
        exact hpassed
      have hcarried : d₁.Passed (r.answers.map .answer) r.text d₂ := by
        have hobeyed := d₁.obeyed least r.line
        rw [hline least le_rfl] at hobeyed
        obtain ⟨k, text, htakes', hpassed⟩ := hobeyed.passed r.outcome_ne.2
        obtain rfl := htakes.unique htakes'
        rw [hanswers]
        exact { hpassed with printed := htext }
      have hall := (((passed_print d prompt).trans hheard).trans hcarried).trans
        (passed_print d₂ r.report)
      simpa [Round.heard, Round.shown] using hall

theorem Turn.not_asksToQuit (h : Turn prompt d r d') : ¬ AsksToQuit r.line := by
  cases h with
  | @intro d₁ d₂ _ least _ _ _ hline _ _ =>
      intro hquits
      obtain ⟨history, hquit⟩ := hquits.executeLine d₁
      have houtcome := (hline least le_rfl).symm.trans (hquit least)
      exact r.outcome_ne.1 (Prod.mk.inj houtcome).2

/-- An error of a round is one that the shell answers, and its message is one line but for
a word that it names. -/
theorem Turn.error (h : Turn prompt d r d') {error : Error} (herror : r.error = some error) :
    error.escape? = none ∧ (OneLine error.message ∨
      ∃ word, error = .command (.unknownCommand word) ∧ .char '\n' ∈ word) := by
  have hends := ends_executeLine h.not_asksToQuit
  cases h with
  | @intro d₁ d₂ _ least _ _ _ hline hanswered _ =>
      have hended := hends least d₁
      rw [hline least le_rfl, Round.outcome, herror] at hended
      exact ⟨hanswered error herror, hended.oneLine_message⟩

/-- The shell goes through a round if its bound suffices. -/
theorem Turn.session (h : Turn prompt d r d') :
    ∃ least, ∀ bound ≥ least, ∀ lines,
      d.session prompt bound (lines + 1) = d'.session prompt bound lines := by
  cases h with
  | @intro d₁ d₂ _ least hread _ _ hline hanswered _ =>
      refine ⟨least, fun bound hbound lines => ?_⟩
      rw [Debugger.session, hread]
      dsimp only
      rw [hline bound hbound, Round.outcome, Round.report]
      cases herror : r.error with
      | none =>
          have hempty : d₂.print [] = d₂ := d₂.print_empty
          dsimp only [Option.elim_none]
          rw [hempty]
      | some error =>
          dsimp only [Option.elim_some]
          rw [hanswered error herror]
          rfl

/-- Rounds one after another. -/
inductive Rounds (prompt : RawText) : Debugger → List Round → Debugger → Prop
  | nil {d : Debugger} : Rounds prompt d [] d
  | cons {d d₁ d' : Debugger} {r : Round} {rounds : List Round} (hturn : Turn prompt d r d₁)
      (hrest : Rounds prompt d₁ rounds d') : Rounds prompt d (r :: rounds) d'

variable {rounds : List Round}

theorem Rounds.passed (h : Rounds prompt d rounds d') :
    d.Passed (rounds.flatMap Round.heard) (rounds.map (Round.shown prompt)).flatten d' := by
  induction h with
  | nil => exact .refl _
  | cons hturn _ ih =>
      rw [List.flatMap_cons, List.map_cons, List.flatten_cons]
      exact hturn.passed.trans ih

theorem Rounds.forall (h : Rounds prompt d rounds d') {p : Round → Prop}
    (hp : ∀ {d r d'}, Turn prompt d r d' → p r) : ∀ r ∈ rounds, p r := by
  induction h with
  | nil => nofun
  | cons hturn _ ih => exact List.forall_mem_cons.mpr ⟨hp hturn, ih⟩

theorem Rounds.session (h : Rounds prompt d rounds d') :
    ∃ least, ∀ bound ≥ least, ∀ lines,
      d.session prompt bound (rounds.length + lines) = d'.session prompt bound lines := by
  induction h with
  | nil => exact ⟨0, fun _ _ lines => by rw [List.length_nil, Nat.zero_add]⟩
  | cons hturn _ ih =>
      obtain ⟨least, hfirst⟩ := hturn.session
      obtain ⟨least', hrest⟩ := ih
      refine ⟨max least least', fun bound hbound lines => ?_⟩
      rw [List.length_cons, Nat.add_right_comm, hfirst bound (le_of_max_le_left hbound),
        hrest bound (le_of_max_le_right hbound)]

/-! ## Closing -/

/-- How a session closes behind its rounds: at a line that asks to quit, or at the end of
the lines, where an empty line is printed. -/
inductive Closes (prompt : RawText) (d : Debugger) : Option RawText → Debugger → Prop
  | quits {line : RawText} {d₁ : Debugger} {history : Array (RawText × List RawText)}
      (hread : (d.print prompt).readLine = (.line line, d₁)) (hquits : AsksToQuit line)
      (hline : ∀ bound, d₁.executeLine bound line = ({ d₁ with history }, .quits)) :
      Closes prompt d (some line) { d₁ with history }
  | ended {d₁ : Debugger} (hread : (d.print prompt).readLine = (.ended, d₁))
      (hnone : d₁.commands.unread = []) : Closes prompt d none (d₁.print "\n")

variable {closing : Option RawText}

/-- What the closing line leaves the session with. -/
def ending (closing : Option RawText) : SessionEnd := closing.elim .inputEnded fun _ => .quit

/-- What is printed last. -/
def farewell (prompt : RawText) (closing : Option RawText) : RawText :=
  prompt ++ closing.elim "\n" fun _ => ""

theorem Closes.passed (h : Closes prompt d closing d') :
    d.Passed (closing.map Heard.command).toList (farewell prompt closing) d' := by
  have hpassed := (passed_print d prompt).trans (d.print prompt).passed_readLine
  cases h with
  | quits hread =>
      rw [hread] at hpassed
      exact hpassed.remember _
  | ended hread =>
      rw [hread] at hpassed
      have hall := hpassed.trans (passed_print _ "\n")
      simp only [List.append_nil] at hall
      exact hall

theorem Closes.session (h : Closes prompt d closing d') (bound lines : Nat) :
    d.session prompt bound (lines + 1) = (d', ending closing) := by
  rw [Debugger.session]
  cases h with
  | quits hread hquits hline =>
      rw [hread]
      dsimp only
      rw [hline]
      rfl
  | ended hread =>
      rw [hread]
      rfl

theorem Closes.unread (h : Closes prompt d none d') : d'.commands.unread = [] := by
  cases h with
  | @ended d₁ _ hnone =>
      obtain ⟨machine, _ | _, _ | _, history⟩ := d₁ <;> exact hnone

/-- The next line asks the machine to run to the halt, and no step stops it. -/
inductive Endless (prompt : RawText) (d : Debugger) : Prop
  | intro {line : RawText} {d₁ : Debugger} (hread : (d.print prompt).readLine = (.line line, d₁))
      (hdemand : demand line = .toHalt) (hrun : d₁.machine.halted = false)
      (hstops : ∀ k, ¬ d₁.machine.Stops k) : Endless prompt d

/-! ## Sessions -/

/-- **A session goes in rounds** until it closes, or until the machine runs on for ever or
reads a surrogate. -/
theorem exists_rounds (prompt : RawText) (h : d.commands.Works) :
    ∃ rounds d₁, Rounds prompt d rounds d₁ ∧
      ((∃ closing d', Closes prompt d₁ closing d') ∨ Endless prompt d₁ ∨ Garbled prompt d₁) := by
  -- every round takes a line off the commands
  induction hn : d.commands.toRead.length using Nat.strongRecOn generalizing d with
  | _ n ih =>
      subst hn
      obtain ⟨hreading, hended⟩ := readLine_of_works ((passed_print d prompt).works h)
      rcases hread : (d.print prompt).readLine with ⟨_ | _ | _, d₁⟩
      · rename_i line
        by_cases hquits : AsksToQuit line
        · obtain ⟨history, hline⟩ := hquits.executeLine d₁
          exact ⟨[], d, .nil, .inl ⟨_, _, .quits hread hquits hline⟩⟩
        by_cases hfinished : ∃ bound, (d₁.executeLine bound line).2 ≠ .unfinished
        · obtain ⟨bound, hfinished⟩ := hfinished
          rcases exists_turn hread hquits hfinished with ⟨r, d', rfl, hturn⟩ | hgarbled
          · have hpassed := hturn.passed
            obtain ⟨rounds, d₂, hrounds, hend⟩ :=
              ih _ (hpassed.length_lt h) (hpassed.works h) rfl
            exact ⟨r :: rounds, d₂, .cons hturn hrounds, hend⟩
          · exact ⟨[], d, .nil, .inr (.inr hgarbled)⟩
        · have hunfinished (bound : Nat) : (d₁.executeLine bound line).2 = .unfinished :=
            not_not.mp fun hne => hfinished ⟨bound, hne⟩
          have hiff (bound : Nat) := (d₁.obeyed bound line).unfinished_iff.mp (hunfinished bound)
          refine ⟨[], d, .nil, .inr (.inl (.intro hread (hiff 0).1 (hiff 0).2.1 fun k => ?_))⟩
          exact (hiff (k + 1)).2.2 k (Nat.lt_succ_self k)
      · rw [hread] at hended
        exact ⟨[], d, .nil, .inl ⟨none, _, .ended hread (hended rfl)⟩⟩
      · rw [hread] at hreading
        exact absurd rfl hreading

/-- **How a session goes that comes to its end**: its rounds, the line that closes it, if
there is one, and the debugger that it leaves. -/
structure Conversation (prompt : RawText) (d : Debugger) (rounds : List Round)
    (closing : Option RawText) (d' : Debugger) : Prop where
  /-- The lines are dealt with one after another, each behind its prompt. -/
  course : ∃ d₁, Rounds prompt d rounds d₁ ∧ Closes prompt d₁ closing d'
  /-- The shell goes this way under every bound that suffices. -/
  result : ∃ least, ∀ bound ≥ least, d.shell prompt bound = (d', ending closing)
  /-- The session goes on behind every line but one that asks to quit. -/
  stays : ∀ r ∈ rounds, ¬ AsksToQuit r.line
  quits : ∀ line, closing = some line → AsksToQuit line
  /-- Without such a line it goes on to the end of the commands. -/
  ended : closing = none → d'.commands.unread = []
  /-- Every error is answered. Its report is one line, unless it names a word that has a
  line feed in it and is no command. -/
  errors : ∀ r ∈ rounds, ∀ error, r.error = some error →
    error.escape? = none ∧ (OneLine error.message ∨
      ∃ word, error = .command (.unknownCommand word) ∧ .char '\n' ∈ word)
  printed : d'.printed =
    d.printed ++ (rounds.map (Round.shown prompt)).flatten ++ farewell prompt closing
  /-- Commands from an input of their own are heard by the shell, and what is unread is the
  text behind the last of them. -/
  own : d.keyboard ≠ .ofMachine →
    d.commands.toRead = rounds.map Round.line ++ closing.toList ++ d'.commands.toRead ∧
    d.commands.unread = (rounds.map Round.line ++ closing.toList).flatten ++ d'.commands.unread
  /-- The machine then hears its answers on an input that no command comes from. -/
  answers : d.keyboard ≠ .ofMachine → d.machine.input.Works →
    d.machine.input.toRead = rounds.flatMap Round.answers ++ d'.machine.input.toRead
  /-- On a shared input each line that is gone was heard once and in order, as a command or
  as an answer to the command before it. -/
  shared : d.keyboard = .ofMachine →
    d.machine.input.toRead =
      (rounds.flatMap fun r => r.line :: r.answers) ++ closing.toList ++ d'.machine.input.toRead

theorem commands_of_ofMachine (h : d.keyboard = .ofMachine) : d.commands = d.machine.input := by
  rw [commands, h]

/-! The lines of the rounds, as they are heard by the shell, by the machine, and by both. -/

theorem filterMap_command?_heard (rounds : List Round) :
    (rounds.flatMap Round.heard).filterMap Heard.command? = rounds.map Round.line := by
  induction rounds with
  | nil => rfl
  | cons r rounds ih =>
      rw [List.flatMap_cons, List.filterMap_append, ih, Round.heard,
        Heard.filterMap_command?_cons, Heard.filterMap_command?_answers]
      rfl

theorem filterMap_answer?_heard (rounds : List Round) :
    (rounds.flatMap Round.heard).filterMap Heard.answer? = rounds.flatMap Round.answers := by
  induction rounds with
  | nil => rfl
  | cons r rounds ih =>
      rw [List.flatMap_cons, List.filterMap_append, ih, Round.heard, List.filterMap_cons_none rfl,
        Heard.filterMap_answer?_answers]
      rfl

theorem map_line_heard (rounds : List Round) :
    (rounds.flatMap Round.heard).map Heard.line = rounds.flatMap fun r => r.line :: r.answers := by
  induction rounds with
  | nil => rfl
  | cons r rounds ih =>
      rw [List.flatMap_cons, List.map_append, ih, Round.heard, List.map_cons,
        Heard.map_line_answers]
      rfl

theorem Rounds.conversation (h : Rounds prompt d rounds d₁) (hcloses : Closes prompt d₁ closing d')
    (hworks : d.commands.Works) : Conversation prompt d rounds closing d' where
  course := ⟨d₁, h, hcloses⟩
  result := by
    obtain ⟨least, hsession⟩ := h.session
    refine ⟨max least (rounds.length + 1), fun bound hbound => ?_⟩
    obtain ⟨lines, rfl⟩ := Nat.exists_eq_add_of_le (le_of_max_le_right hbound)
    rw [shell, show rounds.length + 1 + lines = rounds.length + (lines + 1) by omega]
    rw [hsession _ (by omega), hcloses.session]
  stays := h.forall Turn.not_asksToQuit
  quits line heq := by
    subst heq
    cases hcloses with
    | quits _ hquits => exact hquits
  ended heq := by
    subst heq
    exact hcloses.unread
  errors := h.forall fun hturn _ => hturn.error
  printed := by rw [(h.passed.trans hcloses.passed).printed, List.append_assoc]
  own hkeyboard := by
    have hread := (h.passed.trans hcloses.passed).own hkeyboard hworks
    have hclosing : (closing.map Heard.command).toList.filterMap Heard.command? =
        closing.toList := by
      cases closing <;> rfl
    rw [List.filterMap_append, filterMap_command?_heard, hclosing] at hread
    refine ⟨hread, ?_⟩
    have htext := congrArg List.flatten hread
    rwa [List.flatten_append, Input.toRead, Input.flatten_linesOf, Input.toRead,
      Input.flatten_linesOf] at htext
  answers hkeyboard hmachine := by
    have hread := ((h.passed.trans hcloses.passed).answers hkeyboard hmachine).2
    have hclosing : (closing.map Heard.command).toList.filterMap Heard.answer? = [] := by
      cases closing <;> rfl
    rwa [List.filterMap_append, filterMap_answer?_heard, hclosing, List.append_nil] at hread
  shared hkeyboard := by
    have hpassed := h.passed.trans hcloses.passed
    have hread := hpassed.shared hkeyboard hworks
    have hclosing : (closing.map Heard.command).toList.map Heard.line = closing.toList := by
      cases closing <;> rfl
    rwa [List.map_append, map_line_heard, hclosing, commands_of_ofMachine hkeyboard,
      commands_of_ofMachine (hpassed.keyboard.mpr hkeyboard)] at hread

/-- **A shell holds a conversation** with any text of commands, on the machine's input or on
one of its own and with either screen, unless a line makes the machine run on for ever or
read a surrogate. -/
theorem holds_conversation (prompt : RawText) (h : d.commands.Works) :
    (∃ rounds closing d', Conversation prompt d rounds closing d') ∨
      ∃ rounds d₁, Rounds prompt d rounds d₁ ∧ (Endless prompt d₁ ∨ Garbled prompt d₁) := by
  obtain ⟨rounds, d₁, hrounds, ⟨closing, d', hcloses⟩ | hbreaks⟩ := exists_rounds prompt h
  · exact .inl ⟨rounds, closing, d', hrounds.conversation hcloses h⟩
  · exact .inr ⟨rounds, d₁, hrounds, hbreaks⟩

/-- A program that reads on the input of the shell: the second line is its answer, and what
follows the third is left. -/
theorem holds_conversation_shared :
    let m : Machine :=
      { memory := Memory.ofWords [0x1000, 0] (by decide),
        input := .ofText "step\n2a\nquit\nrest" }
    let d : Debugger := { machine := m, keyboard := .ofMachine, screen := .own [] }
    d.commands.Works ∧
      ((∃ rounds closing d', Conversation shellPrompt d rounds closing d') ∨
        ∃ rounds d₁, Rounds shellPrompt d rounds d₁ ∧
          (Endless shellPrompt d₁ ∨ Garbled shellPrompt d₁)) ∧
      (d.shell shellPrompt 2).1.machine.registers.acc = 0x2a ∧
      (d.shell shellPrompt 2).1.machine.input.unread = "rest" ∧
      (d.shell shellPrompt 2).2 = .quit :=
  ⟨Input.works_ofText _, holds_conversation shellPrompt (Input.works_ofText _), rfl, rfl, rfl⟩

/-- A line feed behind a backslash belongs to the word in front of it: the report that
names the word takes two lines. -/
theorem report_of_two_lines :
    (¬ ∀ (d : Debugger) (bound : Nat) (line : RawText) (error : Error),
      Input.linesOf line = [line] → (d.executeLine bound line).2 = .failed error →
        OneLine error.message) ∧
    let d : Debugger :=
      { machine := { memory := Memory.ofWords [0] (by decide) },
        keyboard := .own (.ofText "foo\\\n") }
    (d.shell shellPrompt 2).1.printed =
      "(ibcm) error: unknown command 'foo\n'\n(ibcm) \n" := by
  refine ⟨fun h => ?_, rfl⟩
  let d : Debugger := { machine := { memory := Memory.ofWords [0] (by decide) } }
  have honeLine := h d 0 "foo\\\n" (.command (.unknownCommand "foo\n")) rfl rfl
  revert honeLine
  decide

end IttyBitty.Debugger
