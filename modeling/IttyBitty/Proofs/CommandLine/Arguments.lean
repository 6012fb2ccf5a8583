import IttyBitty.CommandLine.Request

/-!
# Plain command lines

A command with its options and the names of files, none of which looks like an
option, is the request that it seems to be.
-/

namespace IttyBitty.CommandLine

/-- A text that does not look like an option. -/
def IsPlain (t : Text) : Prop := t.head? ≠ some '-'

instance (t : Text) : Decidable (IsPlain t) := inferInstanceAs (Decidable (_ ≠ _))

theorem IsPlain.ne_dashes {t : Text} (h : IsPlain t) : t ≠ dashes := by
  rintro rfl
  exact h rfl

namespace Grammar

variable {κ : Type} {g : Grammar κ}

theorem classify_of_isPlain {t : Text} (h : IsPlain t) : g.classify t = .ok (.operand t) := by
  unfold classify
  split
  · exact absurd rfl h
  · rfl

theorem classifyAll_cons {argument : Text} {rest : List Text} {item : Item κ}
    {items : List (Item κ)} (hne : argument ≠ dashes) (hitem : g.classify argument = .ok item)
    (hitems : g.classifyAll rest = .ok items) :
    g.classifyAll (argument :: rest) = .ok (item :: items) := by
  rw [classifyAll, if_neg hne, hitem, hitems]
  rfl

theorem classifyAll_plain {t : Text} (h : IsPlain t) {rest : List Text} {items : List (Item κ)}
    (hitems : g.classifyAll rest = .ok items) :
    g.classifyAll (t :: rest) = .ok (.operand t :: items) :=
  classifyAll_cons h.ne_dashes (classify_of_isPlain h) hitems

theorem classifyAll_append {flags rest : List Text} {items restItems : List (Item κ)}
    (hne : dashes ∉ flags) (hflags : g.classifyAll flags = .ok items)
    (hrest : g.classifyAll rest = .ok restItems) :
    g.classifyAll (flags ++ rest) = .ok (items ++ restItems) := by
  induction flags generalizing items with
  | nil =>
      cases hflags
      exact hrest
  | cons flag flags ih =>
      rw [List.mem_cons, not_or] at hne
      rw [classifyAll, if_neg (Ne.symm hne.1)] at hflags
      cases hitem : g.classify flag with
      | error e => rw [hitem] at hflags; cases hflags
      | ok item =>
          rw [hitem] at hflags
          cases hitems : g.classifyAll flags with
          | error e => rw [hitems] at hflags; cases hflags
          | ok flagItems =>
              rw [hitems] at hflags
              cases hflags
              exact classifyAll_cons (Ne.symm hne.1) hitem (ih hne.2 hitems)

theorem valueOf_of_isPlain {t : Text} (h : IsPlain t) : valueOf t = some t := by
  rw [valueOf, if_neg h.ne_dashes]

theorem read_eq_ok [DecidableEq κ] {arguments : List Text} {items : List (Item κ)}
    {e : Effects κ} (hitems : g.classifyAll arguments = .ok items)
    (heffects : g.effects {} items = .ok e) (hoperand : e.operand.isSome = true) :
    g.read arguments = .ok e := by
  have hnone : e.operand.isNone = false := by rw [Option.isNone_eq_false_iff]; exact hoperand
  rw [read, hitems]
  show (do
    let e ← g.effects {} items
    if g.required && e.operand.isNone then throw (Stop.usage (.missingOperand g.operand))
    return e) = _
  rw [heffects]
  show (if g.required && e.operand.isNone then throw _ else pure e) = _
  rw [hnone, Bool.and_false]
  rfl

end Grammar

/-- An argument that the toolkit has no use for. -/
def Foreign (a : Text) : Prop := IsPlain a ∨ toolkitGrammar.classify a = .ok (.unknown a)

/-- Arguments that the toolkit leaves to a command. -/
theorem classifyAll_toolkit {arguments : List Text}
    (h : ∀ a ∈ arguments, Foreign a) :
    ∃ items, toolkitGrammar.classifyAll arguments = .ok items ∧
      items.map Item.argument = arguments ∧ items.head? ≠ some .separator := by
  induction arguments with
  | nil => exact ⟨[], rfl, rfl, nofun⟩
  | cons a rest ih =>
      obtain ⟨items, hitems, hmap, -⟩ := ih fun a' hmem => h a' (List.mem_cons_of_mem _ hmem)
      rcases h a (List.mem_cons_self ..) with hplain | hunknown
      · exact ⟨.operand a :: items, Grammar.classifyAll_plain hplain hitems,
          by simp [hmap, Item.argument], nofun⟩
      · have hne : a ≠ dashes := by
          rintro rfl
          cases hunknown
        exact ⟨.unknown a :: items, Grammar.classifyAll_cons hne hunknown hitems,
          by simp [hmap, Item.argument], nofun⟩

/-- **The toolkit takes a command word and leaves the rest to the command.** -/
theorem read_toolkit {word : Text} {arguments : List Text} (hword : IsPlain word)
    (h : ∀ a ∈ arguments, Foreign a) :
    toolkitGrammar.read (word :: arguments) = .ok { operand := some (word :: arguments) } := by
  obtain ⟨items, hitems, hmap, hseparator⟩ := classifyAll_toolkit h
  refine Grammar.read_eq_ok (Grammar.classifyAll_plain hword hitems) ?_ rfl
  rw [← hmap]
  cases items with
  | nil => rfl
  | cons item items =>
      cases item with
      | separator => exact absurd rfl hseparator
      | operand argument => rfl
      | option spec name attached argument => rfl
      | unknown argument => rfl

/-- A command word with arguments that its grammar takes in. -/
theorem ofArguments_eq_request {c : CommandName} {arguments : List Text}
    {e : Grammar.Effects Setting} {file : Text}
    (houter : toolkitGrammar.read (c.word.toList :: arguments)
      = .ok { operand := some (c.word.toList :: arguments) })
    (hinner : c.grammar.read arguments = .ok e) (hextras : e.extras = [])
    (hoperand : e.operand = some [file]) :
    Invocation.ofArguments (c.word.toList :: arguments) =
      .request {
        verbosity := 0, quiet := false, logFile := none
        command := c.command e file } := by
  have hword : CommandName.ofText? c.word.toList = some c := by cases c <;> decide
  rw [Invocation.ofArguments, houter]
  simp only [hword]
  rw [Invocation.ofCommand, hinner]
  simp only [hextras, hoperand]
  rfl

/-! ## Commands with files -/

/-- `compile` with an output file. -/
def compileLine (binary : Bool) (input output : Text) : List Text :=
  "compile".toList :: ((if binary then ["-b".toList] else [])
    ++ [input, "-o".toList, output])

/-- The option for what a program file holds. -/
def formOption : ProgramForm → List Text
  | .hexListing => []
  | .assembly => ["-s".toList]
  | .binary => ["-b".toList]

/-- `execute` with a program file. -/
def executeLine (form : ProgramForm) (silent : Bool) (file : Text) : List Text :=
  "execute".toList :: (((if silent then ["--no-prompt".toList] else []) ++ formOption form)
    ++ [file])

theorem ofArguments_compileLine {input output : Text} (hinput : IsPlain input)
    (houtput : IsPlain output) (binary : Bool) :
    Invocation.ofArguments (compileLine binary input output) =
      .request {
        verbosity := 0, quiet := false, logFile := none
        command := .compile {
          input := Path.ofText input, output := some (Path.ofText output)
          fromHexListing := false, showListing := false, toBinary := binary } } := by
  have hfiles : ∀ a ∈ [input, "-o".toList, output], Foreign a := by
    simp only [List.forall_mem_cons]
    exact ⟨.inl hinput, .inr rfl, .inl houtput, nofun⟩
  have hitems : CommandName.compile.grammar.classifyAll [input, "-o".toList, output]
      = .ok [.operand input, .option _ "-o".toList none "-o".toList, .operand output] :=
    Grammar.classifyAll_plain hinput <|
    Grammar.classifyAll_cons (by decide) rfl <|
    Grammar.classifyAll_plain houtput rfl
  cases binary
  all_goals
    refine (ofArguments_eq_request (c := .compile) (read_toolkit (by decide) ?_)
      (Grammar.read_eq_ok (Grammar.classifyAll_append (by decide) rfl hitems) rfl rfl)
      rfl rfl).trans ?_
  case false.refine_1 => exact hfiles
  case true.refine_1 => exact List.forall_mem_cons.mpr ⟨.inr rfl, hfiles⟩
  -- what `-o` is given looks like no option, so it is taken as it stands
  all_goals
    show Invocation.request {
      verbosity := 0, quiet := false, logFile := none
      command := .compile {
        input := _, output := (Grammar.valueOf output).map Path.ofText
        fromHexListing := _, showListing := _, toBinary := _ } } = _
    rw [Grammar.valueOf_of_isPlain houtput]
    rfl

theorem ofArguments_executeLine {file : Text} (hfile : IsPlain file) (form : ProgramForm)
    (silent : Bool) :
    Invocation.ofArguments (executeLine form silent file) =
      .request {
        verbosity := 0, quiet := false, logFile := none
        command := .execute ⟨Path.ofText file, form⟩ (!silent) false } := by
  have hforeign : ∀ a ∈ ((if silent then ["--no-prompt".toList] else []) ++ formOption form)
      ++ [file], Foreign a := by
    intro a ha
    rcases List.mem_append.mp ha with ha | ha
    · rcases List.mem_append.mp ha with ha | ha
      · cases silent
        · cases ha
        · rw [List.mem_singleton.mp ha]
          exact .inr rfl
      · cases form
        · cases ha
        all_goals
          rw [List.mem_singleton.mp ha]
          exact .inr rfl
    · rw [List.mem_singleton.mp ha]
      exact .inl hfile
  cases silent <;> cases form
  all_goals
    exact ofArguments_eq_request (c := .execute) (read_toolkit (by decide) hforeign)
      (Grammar.read_eq_ok (Grammar.classifyAll_append (by decide) rfl
        (Grammar.classifyAll_plain hfile rfl)) rfl rfl) rfl rfl

end IttyBitty.CommandLine
