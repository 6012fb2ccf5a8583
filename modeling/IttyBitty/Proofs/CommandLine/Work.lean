import IttyBitty.CommandLine.Run

/-!
# What work comes to

Work on a request without a log file is known by three things: its result, what
it prints, and the files that it leaves; the records it leaves on the way are
not grave enough for the console. Work that is made of parts comes to what the
parts come to one after another.
-/

namespace IttyBitty.CommandLine

/-- There is no log file, and no record that the console would show unasked. -/
structure Session.Silent (s : Session) : Prop where
  logFile : s.logFile = none
  calm : ∀ r ∈ s.log.toList, Record.isShown .warning r = false

namespace Work

variable {α β : Type}

/-- From the files `files`, the work has the given result, prints a text, and
leaves the files `after`. -/
def ComesTo (w : Work α) (files : FileSystem) (result : Except Failure α) (printed : RawText)
    (after : FileSystem) : Prop :=
  ∀ s : Session, s.Silent → s.files = files →
    (w.run.run s).1 = result ∧ (w.run.run s).2.Silent ∧
      (w.run.run s).2.files = after ∧ (w.run.run s).2.stdout = s.stdout ++ printed

/-! ## Single steps -/

variable {files after last : FileSystem}

theorem comesTo_pure (a : α) (files : FileSystem) :
    ComesTo (pure a) files (.ok a) "" files := by
  rintro s hs rfl
  exact ⟨rfl, hs, rfl, (List.append_nil _).symm⟩

theorem comesTo_throw (failure : Failure) (files : FileSystem) :
    ComesTo (throw failure : Work α) files (.error failure) "" files := by
  rintro s hs rfl
  exact ⟨rfl, hs, rfl, (List.append_nil _).symm⟩

theorem comesTo_print (text : RawText) (files : FileSystem) :
    ComesTo (print text) files (.ok ()) text files := by
  rintro s hs rfl
  exact ⟨rfl, ⟨hs.logFile, hs.calm⟩, rfl, rfl⟩

/-- Records below a warning are not noticed. -/
theorem comesTo_note (level : Level) (hlevel : level.rank < Level.warning.rank)
    (reporter : Reporter) (messages : List String) (files : FileSystem) :
    ComesTo (note level reporter messages) files (.ok ()) "" files := by
  rintro s hs rfl
  let records := messages.map fun m => (⟨level, reporter, m⟩ : Record)
  -- without a log file the records go into the log and nowhere else
  have hrun : (note level reporter messages).run.run s
      = (.ok (), { s with log := s.log ++ records.toArray }) := by
    obtain ⟨time, logFile, files, stdout, log⟩ := s
    obtain rfl : logFile = none := hs.logFile
    rfl
  rw [hrun]
  refine ⟨rfl, ⟨hs.logFile, ?_⟩, rfl, (List.append_nil _).symm⟩
  intro r hr
  rw [Array.toList_append, List.toList_toArray] at hr
  rcases List.mem_append.mp hr with hr | hr
  · exact hs.calm r hr
  · obtain ⟨m, -, rfl⟩ := List.mem_map.mp hr
    exact decide_eq_false (Nat.not_le_of_lt hlevel)

theorem comesTo_ofExcept {ε : Type} (cause : ε → Failure) (result : Except ε α)
    (files : FileSystem) :
    ComesTo (ofExcept cause result) files (result.mapError cause) "" files := by
  cases result with
  | ok a => exact comesTo_pure a files
  | error e => exact comesTo_throw (cause e) files

/-- Work that looks at the session first. -/
theorem get_bind_run (k : Session → Work α) (s : Session) :
    (get >>= k).run.run s = (k s).run.run s := rfl

theorem comesTo_readFile (path : Path) (files : FileSystem) :
    ComesTo (readFile path) files ((files.read path).mapError (.file · path)) "" files := by
  rintro s hs rfl
  have hrun : (readFile path).run.run s = ((s.files.read path).mapError (.file · path), s) := by
    rw [readFile, get_bind_run]
    cases s.files.read path <;> rfl
  rw [hrun]
  exact ⟨rfl, hs, rfl, (List.append_nil _).symm⟩

/-- A file is written where its path leads. -/
theorem comesTo_writeFile {path : Path} {place : List Text} (bytes : List UInt8)
    (h : files.locate path = .ok place) :
    ComesTo (writeFile path bytes) files (.ok ()) "" (files.put place bytes) := by
  rintro s hs rfl
  have hwrite : s.files.write path bytes = .ok (s.files.put place bytes) := by
    rw [FileSystem.write, h]
    rfl
  have hrun : (writeFile path bytes).run.run s
      = (.ok (), { s with files := s.files.put place bytes }) := by
    rw [writeFile, get_bind_run, hwrite]
    rfl
  rw [hrun]
  exact ⟨rfl, ⟨hs.logFile, hs.calm⟩, rfl, (List.append_nil _).symm⟩

/-! ## One after another -/

theorem bind_run (w : Work α) (k : α → Work β) (s : Session) :
    (w >>= k).run.run s =
      match (w.run.run s).1 with
      | .ok a => (k a).run.run (w.run.run s).2
      | .error failure => (.error failure, (w.run.run s).2) := by
  have hstep : (w >>= k).run.run s
      = (ExceptT.bindCont k (w.run.run s).1 : StateM Session _) (w.run.run s).2 := rfl
  rw [hstep]
  cases (w.run.run s).1 <;> rfl

theorem ComesTo.bind {w : Work α} {k : α → Work β} {a : α} {result : Except Failure β}
    {text text' : RawText} (h : ComesTo w files (.ok a) text after)
    (hk : ComesTo (k a) after result text' last) :
    ComesTo (w >>= k) files result (text ++ text') last := by
  intro s hs hfiles
  obtain ⟨hresult, hsilent, hafter, hstdout⟩ := h s hs hfiles
  have hrun : (w >>= k).run.run s = (k a).run.run (w.run.run s).2 := by
    rw [bind_run, hresult]
  obtain ⟨hresult', hsilent', hlast, hstdout'⟩ := hk _ hsilent hafter
  rw [hrun]
  refine ⟨hresult', hsilent', hlast, ?_⟩
  rw [hstdout', hstdout, List.append_assoc]

/-- A part that prints nothing. -/
theorem ComesTo.bind_silent {w : Work α} {k : α → Work β} {a : α} {result : Except Failure β}
    {text : RawText} (h : ComesTo w files (.ok a) "" after)
    (hk : ComesTo (k a) after result text last) : ComesTo (w >>= k) files result text last := by
  have hboth := h.bind hk
  rwa [RawText.ofString_empty, List.nil_append] at hboth

/-- A part behind which nothing is printed. -/
theorem ComesTo.bind_last {w : Work α} {k : α → Work β} {a : α} {result : Except Failure β}
    {text : RawText} (h : ComesTo w files (.ok a) text after)
    (hk : ComesTo (k a) after result "" last) : ComesTo (w >>= k) files result text last := by
  have hboth := h.bind hk
  rwa [RawText.ofString_empty, List.append_nil] at hboth

theorem ComesTo.bind_error {w : Work α} {k : α → Work β} {failure : Failure} {text : RawText}
    (h : ComesTo w files (.error failure) text after) :
    ComesTo (w >>= k) files (.error failure) text after := by
  intro s hs hfiles
  obtain ⟨hresult, hsilent, hafter, hstdout⟩ := h s hs hfiles
  have hrun : (w >>= k).run.run s = (.error failure, (w.run.run s).2) := by
    rw [bind_run, hresult]
  rw [hrun]
  exact ⟨rfl, hsilent, hafter, hstdout⟩

/-- **Parts that only look** come to their results one after another. -/
theorem ComesTo.seq {w : Work α} {k : α → Work β} {result : Except Failure α}
    {next : α → Except Failure β} (h : ComesTo w files result "" files)
    (hk : ∀ a, result = .ok a → ComesTo (k a) files (next a) "" files) :
    ComesTo (w >>= k) files (result >>= next) "" files := by
  cases result with
  | error failure => exact h.bind_error
  | ok a => exact h.bind_silent (hk a rfl)

/-- Both branches come to the same. -/
theorem ComesTo.ite {c : Prop} [Decidable c] {w₁ w₂ : Work α} {result : Except Failure α}
    {text : RawText} (h₁ : ComesTo w₁ files result text after)
    (h₂ : ComesTo w₂ files result text after) :
    ComesTo (if c then w₁ else w₂) files result text after := by
  split
  · exact h₁
  · exact h₂

/-- A note behind a value. -/
theorem comesTo_note_pure (level : Level) (hlevel : level.rank < Level.warning.rank)
    (reporter : Reporter) (messages : List String) (a : α) (files : FileSystem) :
    ComesTo (note level reporter messages >>= fun _ => pure a) files (.ok a) "" files :=
  (comesTo_note level hlevel reporter messages files).bind_silent (comesTo_pure a files)

end Work

end IttyBitty.CommandLine
