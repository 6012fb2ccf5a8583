import IttyBitty.Proofs.CommandLine.Compiling
import IttyBitty.Proofs.CommandLine.Logging

/-!
# Results of commands

What a command comes to is a function of the files as it finds them and of standard input. It reads
one file, makes something of the bytes and goes on with that, and the first part that fails is what
it fails with (`Command.result`). The records that it leaves on the way may go to a log file and
even to the file that it reads, but they come too late to change the result.
-/

namespace IttyBitty.CommandLine

/-! ## Results -/

/-- Whether the output of a compilation can be written. -/
def outputResult (job : Compilation) (files : FileSystem) : Except Failure Unit :=
  match job.output with
  | none => .error .namelessOutput
  | some output => do
    let _ ← (files.locate output).mapError (.file · output)
    return ()

/-- How a shell session is answered. -/
def sessionVerdict (stdin : StandardInput) : Debugger.SessionEnd → Except Failure Unit
  | .quit | .inputEnded => .ok ()
  | .inputFailed => .error (Work.inputFailure stdin .undecodableCommands)
  | .escaped fault => .error (.fault fault)
  | .unfinished => .error .unfinished

/-- The debugger of a program; it shares standard input and output with the program. -/
def debuggerOf (stdin : StandardInput) (memory : Memory) : Debugger where
  machine := { memory, input := stdin.input }
  keyboard := .ofMachine
  screen := .ofMachine

/-- Whether a text has the tokens, or the tree, that are to be shown. -/
def sourceResult (showTokens : Bool) (t : Text) : Except Failure Unit :=
  if showTokens then do
    let _ ← (Ibcmc.tokenize t).mapError (.frontEnd ∘ .lexical)
    return ()
  else do
    let _ ← (Ibcmc.parse t).mapError .frontEnd
    return ()

/-- **What a command comes to**, from the files as it finds them. -/
def Command.result (bound : Nat) (stdin : StandardInput) (files : FileSystem) :
    Command → Except Failure Unit
  | .compile job => do
    let _ ← memoryIn files ⟨job.input, sourceForm job⟩
    outputResult job files
  | .execute program prompting tracing => do
    let memory ← memoryIn files program
    (played bound stdin memory prompting tracing).1
  | .debug program => do
    let memory ← memoryIn files program
    sessionVerdict stdin ((debuggerOf stdin memory).shell Debugger.shellPrompt bound).2
  | .parse input showTokens => do
    let bytes ← (files.read input).mapError (.file · input)
    let text ← (Utf8.decode bytes).mapError .unreadable
    sourceResult showTokens text

/-! ## Sessions in which only the log grows -/

/-- The log file, if there is one, is there. -/
structure Session.Ready (s : Session) : Prop where
  anchored : s.Anchored
  logged : ∀ place, s.logFile = some place → (s.files.file? place).isSome

/-- Something may have been printed since, and the log file may have grown. -/
def Session.Before (s s' : Session) : Prop := ∃ printed, s.Prints s' printed

namespace Session

variable {s s' s'' : Session}

theorem Before.refl (s : Session) : s.Before s := ⟨[], .refl s⟩

theorem Before.trans (h : s.Before s') (h' : s'.Before s'') : s.Before s'' := by
  obtain ⟨printed, h⟩ := h
  obtain ⟨printed', h'⟩ := h'
  exact ⟨_, h.trans h'⟩

theorem Ready.later (hs : s.Ready) (h : s.Before s') : s'.Ready := by
  obtain ⟨printed, h⟩ := h
  refine ⟨h.anchored hs.anchored, fun place hplace => ?_⟩
  rw [h.logFile] at hplace
  obtain ⟨bytes, hbytes⟩ := Option.isSome_iff_exists.mp (hs.logged place hplace)
  obtain ⟨more, hmore⟩ := h.files.kept place bytes hbytes
  rw [hmore]
  rfl

/-- The same comes of every path. -/
theorem Before.locate (h : s.Before s') (hs : s.Ready) (p : Path) :
    s'.files.locate p = s.files.locate p := by
  obtain ⟨printed, h⟩ := h
  exact h.files.locate_eq hs.logged p

end Session

namespace Work

variable {α β : Type} {s : Session}

/-- In the session the work has the given result, and nothing else comes of it but that something
is printed and the log file grows. -/
def Gives (w : Work α) (s : Session) (result : Except Failure α) : Prop :=
  s.Ready → (w.run.run s).1 = result ∧ s.Before (w.run.run s).2

/-! ## Single steps -/

theorem gives_pure (a : α) (s : Session) : Gives (pure a) s (.ok a) := fun _ => ⟨rfl, .refl s⟩

theorem gives_throw (failure : Failure) (s : Session) :
    Gives (throw failure : Work α) s (.error failure) := fun _ => ⟨rfl, .refl s⟩

theorem gives_print (text : RawText) (s : Session) : Gives (print text) s (.ok ()) :=
  fun _ => ⟨rfl, text, Through.prints_print ⟨rfl, rfl⟩⟩

theorem gives_note (level : Level) (reporter : Reporter) (messages : List String) (s : Session) :
    Gives (note level reporter messages) s (.ok ()) :=
  fun hs => ⟨rfl, [], Through.prints_note hs.anchored ⟨rfl, rfl⟩⟩

theorem gives_ofExcept {ε : Type} (cause : ε → Failure) (result : Except ε α) (s : Session) :
    Gives (ofExcept cause result) s (result.mapError cause) := by
  cases result with
  | ok a => exact gives_pure a s
  | error e => exact gives_throw (cause e) s

theorem gives_readFile (path : Path) (s : Session) :
    Gives (readFile path) s ((s.files.read path).mapError (.file · path)) := by
  intro _
  rw [readFile, get_bind_run]
  cases s.files.read path with
  | ok bytes => exact ⟨rfl, .refl s⟩
  | error error => exact ⟨rfl, .refl s⟩

/-! ## One after another -/

/-- **Parts one after another** give their results one after another, if what comes behind the
first part is the same in every session. -/
theorem Gives.bind {w : Work α} {k : α → Work β} {result : Except Failure α}
    {next : α → Except Failure β} (hw : Gives w s result)
    (hk : ∀ a s', Gives (k a) s' (next a)) : Gives (w >>= k) s (result >>= next) := by
  intro hs
  obtain ⟨rfl, hbefore⟩ := hw hs
  rw [bind_run]
  cases (w.run.run s).1 with
  | ok a =>
      obtain ⟨hresult, hbefore'⟩ := hk a _ (hs.later hbefore)
      exact ⟨hresult, hbefore.trans hbefore'⟩
  | error failure => exact ⟨rfl, hbefore⟩

/-- A part that has no result of its own. -/
theorem Gives.andThen {w : Work Unit} {k : Unit → Work β} {result : Except Failure β}
    (hw : Gives w s (.ok ())) (hk : ∀ s', Gives (k ()) s' result) : Gives (w >>= k) s result := by
  show Gives (w >>= k) s (Except.ok () >>= fun _ => result)
  exact hw.bind fun _ => hk

/-- Both branches give the same. -/
theorem Gives.ite {c : Prop} [Decidable c] {w w' : Work α} {result : Except Failure α}
    (h : Gives w s result) (h' : Gives w' s result) :
    Gives (if c then w else w') s result := by
  split
  · exact h
  · exact h'

/-- A value that is noted. -/
theorem gives_note_pure (level : Level) (reporter : Reporter) (messages : List String) (a : α)
    (s : Session) : Gives (note level reporter messages >>= fun _ => pure a) s (.ok a) :=
  (gives_note level reporter messages s).andThen fun s' => gives_pure a s'

/-! ## Loading -/

theorem gives_assemble (source : List UInt8) (s : Session) :
    Gives (assemble source) s
      (((Assembly.Assembler.assemble {} (.bytes source)).2.mapError .assembly).map
        fun _ => (Assembly.Assembler.assemble {} (.bytes source)).1) := by
  rcases h : Assembly.Assembler.assemble {} (.bytes source) with ⟨a, result⟩
  have hrest (messages : Assembly.Program → List String) (s : Session) :
      Gives (do
        let program ← ofExcept Failure.assembly result
        note .debug .assembler (messages program)
        return a) s ((result.mapError .assembly).map fun _ => a) := by
    have hresult := (gives_ofExcept Failure.assembly result s).bind fun program s' =>
      gives_note_pure .debug .assembler (messages program) a s'
    cases result <;> exact hresult
  -- whether the first pass has been noted makes no difference
  unfold assemble
  rw [h]
  exact .ite ((gives_note _ _ _ s).andThen (hrest _)) (hrest _ s)

theorem gives_loadHexListing (bytes : List UInt8) (s : Session) :
    Gives (loadHexListing bytes) s (memoryOf .hexListing bytes) := by
  refine (gives_ofExcept .unreadable _ s).bind fun text s' => ?_
  rw [← bind_pure ((HexListing.load text).mapError Failure.hexListing)]
  refine (gives_ofExcept .hexListing _ s').bind fun memory s'' => ?_
  exact gives_note_pure _ _ _ memory s''

theorem gives_loadBinary (bytes : List UInt8) (s : Session) :
    Gives (loadBinary bytes) s (memoryOf .binary bytes) := by
  rw [memoryOf, ← bind_pure ((Binary.load bytes).mapError Failure.memory)]
  refine (gives_ofExcept .memory _ s).bind fun memory s' => ?_
  exact gives_note_pure _ _ _ memory s'

/-- A program that is loaded when its source has been assembled. -/
theorem gives_assembled {k : Assembly.Assembler → Work Memory}
    (hk : ∀ a s, Gives (k a) s ((Memory.loadWords a.words.toList).mapError .memory))
    (bytes : List UInt8) (s : Session) :
    Gives (assemble bytes >>= k) s (memoryOf .assembly bytes) := by
  have hassemble := (gives_assemble bytes s).bind hk
  rw [memoryOf, Assembly.assemble]
  rcases h : Assembly.Assembler.assemble {} (.bytes bytes) with ⟨a, result⟩
  rw [h] at hassemble
  cases result with
  | error e => exact hassemble
  | ok program =>
      obtain rfl := program_eq_of_assemble h
      exact hassemble

theorem gives_loadAssembled (a : Assembly.Assembler) (s : Session) :
    Gives (loadAssembled a) s ((Memory.loadWords a.words.toList).mapError .memory) :=
  gives_ofExcept .memory _ s

theorem gives_load (program : ProgramFile) (s : Session) :
    Gives (load program) s (memoryIn s.files program) := by
  have hnote (memory : Memory) (s : Session) : Gives (note .info .toolkit
      [s!"Loaded {memory.length} word(s) from {String.ofList program.path.text}"]
        >>= fun _ => pure memory) s (.ok memory) :=
    gives_note_pure _ _ _ memory s
  refine (gives_readFile program.path s).bind fun bytes s' => ?_
  rw [← bind_pure (memoryOf program.form bytes)]
  obtain ⟨path, form⟩ := program
  cases form with
  | hexListing => exact (gives_loadHexListing bytes s').bind hnote
  | binary => exact (gives_loadBinary bytes s').bind hnote
  | assembly =>
      have hassembly := (gives_assembled gives_loadAssembled bytes s').bind hnote
      rwa [bind_assoc] at hassembly

/-! ## Commands -/

/-- A listing that is shown makes no difference. -/
theorem gives_compiled (job : Compilation) (source : List UInt8) (s : Session) :
    Gives (compiled job source) s (memoryOf (sourceForm job) source) := by
  rw [compiled, sourceForm]
  by_cases hhex : job.fromHexListing = true
  · rw [if_pos hhex, if_pos hhex]
    exact gives_loadHexListing source s
  · rw [if_neg hhex, if_neg hhex]
    refine gives_assembled (fun a s' => ?_) source s
    exact .ite ((gives_print _ s').andThen (gives_loadAssembled a)) (gives_loadAssembled a s')

/-- Whether a program can be kept depends on the output path alone. -/
theorem result_keep (job : Compilation) (memory : Memory) (s : Session) :
    ((keep job memory).run.run s).1 = outputResult job s.files := by
  rw [keep, outputResult]
  cases job.output with
  | none => rfl
  | some output =>
      dsimp only
      rw [bind_run, writeFile, get_bind_run, FileSystem.write]
      cases s.files.locate output <;> rfl

variable (bound : Nat) (stdin : StandardInput)

theorem result_compile (job : Compilation) (hs : s.Ready) :
    ((compile job).run.run s).1 = (Command.compile job).result bound stdin s.files := by
  have hsource : Gives (do compiled job (← readFile job.input)) s
      (memoryIn s.files ⟨job.input, sourceForm job⟩) :=
    (gives_readFile job.input s).bind (gives_compiled job)
  obtain ⟨hresult, hbefore⟩ := hsource hs
  have hcompile : compile job = (do compiled job (← readFile job.input)) >>= keep job :=
    (bind_assoc _ _ _).symm
  rw [hcompile, bind_run, hresult, Command.result]
  cases memoryIn s.files ⟨job.input, sourceForm job⟩ with
  | error failure => rfl
  | ok memory =>
      refine (result_keep job memory _).trans ?_
      rw [outputResult, funext (hbefore.locate hs)]
      rfl

theorem gives_execute (program : ProgramFile)
    (prompting tracing : Bool) (s : Session) :
    Gives (execute bound stdin program prompting tracing) s
      ((Command.execute program prompting tracing).result bound stdin s.files) := by
  refine (gives_load program s).bind fun memory s' => ?_
  rw [played]
  dsimp only
  cases ({ memory, input := stdin.input, prompting, tracing } : Machine).runToHalt bound with
  | none => exact gives_throw .unfinished s'
  | some r =>
      show Gives _ s' (verdict stdin r.fault)
      refine (gives_print _ s').andThen fun s' => (gives_note _ _ _ s').andThen fun s' => ?_
      cases r.fault with
      | none =>
          exact (gives_note _ _ _ s').andThen fun s' => gives_note _ _ _ s'
      | some fault => cases fault <;> exact gives_throw _ s'

theorem gives_debug (program : ProgramFile) (s : Session) :
    Gives (debug bound stdin program) s
      ((Command.debug program).result bound stdin s.files) := by
  refine (gives_load program s).bind fun memory s' => ?_
  refine (gives_print _ s').andThen fun s' => ?_
  show Gives _ s' (sessionVerdict stdin ((debuggerOf stdin memory).shell _ bound).2)
  rw [debuggerOf]
  dsimp only
  generalize Debugger.shell _ bound _ = r
  obtain ⟨d, ending⟩ := r
  refine (gives_print _ s').andThen fun s' => (gives_note _ _ _ s').andThen fun s' => ?_
  cases ending with
  | quit => exact gives_pure () s'
  | inputEnded => exact gives_pure () s'
  | inputFailed => exact gives_throw _ s'
  | escaped fault => exact gives_throw _ s'
  | unfinished => exact gives_throw _ s'

theorem gives_parse (input : Path) (showTokens : Bool) (s : Session) :
    Gives (parse input showTokens) s
      ((Command.parse input showTokens).result bound stdin s.files) := by
  refine (gives_readFile input s).bind fun bytes s' => ?_
  refine (gives_ofExcept .unreadable _ s').bind fun text s' => ?_
  cases showTokens with
  | true => exact (gives_ofExcept _ _ s').bind fun tokens s' => gives_print _ s'
  | false => exact (gives_ofExcept _ _ s').bind fun tree s' => gives_print _ s'

/-- **The result of a command** is that of the files as the command finds them. -/
theorem result_perform (c : Command) (hs : s.Ready) :
    ((perform bound stdin c).run.run s).1 = c.result bound stdin s.files := by
  cases c with
  | compile job => exact result_compile bound stdin job hs
  | execute program prompting tracing =>
      exact (gives_execute bound stdin program prompting tracing s hs).1
  | debug program => exact (gives_debug bound stdin program s hs).1
  | parse input showTokens => exact (gives_parse bound stdin input showTokens s hs).1

end Work

/-! ## Requests -/

namespace Request

variable {r : Request} {time : String} {files : FileSystem} {s : Session}

/-- The files as the command of a request finds them: the log file, if there is one, is there and
has the first record. -/
def found (r : Request) (time : String) (files : FileSystem) : Except FileError FileSystem := do
  let s ← r.start time files
  return (r.announce.run.run s).2.files

theorem found_of_start (h : r.start time files = .ok s) :
    r.found time files = .ok (r.announce.run.run s).2.files := by
  rw [found, h]
  rfl

theorem ready_of_start (h : r.start time files = .ok s) : s.Ready := by
  refine ⟨(grows_of_start h).1, ?_⟩
  rw [start] at h
  cases hlog : r.logFile with
  | none =>
      rw [hlog] at h
      cases h
      rintro place ⟨⟩
  | some path =>
      rw [hlog] at h
      cases hensure : files.ensure (files.collapse path) with
      | error error =>
          simp only [hensure] at h
          cases h
      | ok made =>
          simp only [hensure] at h
          cases h
          obtain ⟨place, files'⟩ := made
          rintro _ ⟨⟩
          exact FileSystem.isSome_of_ensure hensure

/-- **The work on a request** comes to the result of its command. -/
theorem result_work (h : r.start time files = .ok s) (bound : Nat) (stdin : StandardInput) :
    ((r.work bound stdin).run.run s).1 =
      r.command.result bound stdin (r.announce.run.run s).2.files := by
  have hs := ready_of_start h
  obtain ⟨hannounce, hbefore⟩ := Work.gives_note .debug .toolkit
    [s!"Logging initialized (console level {r.consoleLevel.name})"] s hs
  rw [work, Work.bind_run, announce, hannounce]
  exact Work.result_perform bound stdin r.command (hs.later hbefore)

end Request

end IttyBitty.CommandLine
