import IttyBitty.Proofs.CommandLine.Work

/-!
# What the commands come to

Loading a program depends on the bytes of its file and on what they are said to
hold, and on nothing else. What `execute` and `compile` come to is said by the
memory that was loaded: one plays it, the other writes it out. If there is no
memory, both fail as the loading did.
-/

namespace IttyBitty.CommandLine

/-! ## Results

What loading, playing and compiling come to, as functions of the bytes and the
memory. -/

/-- The memory of the program that some bytes hold. -/
def memoryOf (form : ProgramForm) (bytes : List UInt8) : Except Failure Memory :=
  match form with
  | .hexListing => do
    let text ← (Utf8.decode bytes).mapError .unreadable
    (HexListing.load text).mapError .hexListing
  | .binary => (Binary.load bytes).mapError .memory
  | .assembly => do
    let program ← (Assembly.assemble (.bytes bytes)).mapError .assembly
    (Memory.loadWords program.words).mapError .memory

/-- The memory of the program in a file. -/
def memoryIn (files : FileSystem) (program : ProgramFile) : Except Failure Memory := do
  let bytes ← (files.read program.path).mapError (.file · program.path)
  memoryOf program.form bytes

/-- How the end of a run is answered. -/
def verdict (stdin : StandardInput) : Option Fault → Except Failure Unit
  | some .inputFailed => .error (Work.inputFailure stdin (.fault .inputFailed))
  | some fault => .error (.fault fault)
  | none => .ok ()

/-- How playing a program is answered, and what it prints. -/
def played (bound : Nat) (stdin : StandardInput) (memory : Memory) (prompting tracing : Bool) :
    Except Failure Unit × RawText :=
  match ({ memory, input := stdin.input, prompting, tracing } : Machine).runToHalt bound with
  | none => (.error .unfinished, "")
  | some r => (verdict stdin r.fault, r.machine.output.text)

/-- What the source of a compilation holds. -/
def sourceForm (job : Compilation) : ProgramForm :=
  if job.fromHexListing then .hexListing else .assembly

namespace Work

/-! ## Loading -/

variable {files : FileSystem} {bytes : List UInt8}

/-- A program is what its assembler has built. -/
theorem program_eq_of_assemble {a a' : Assembly.Assembler} {source : Source}
    {p : Assembly.Program} (h : a.assemble source = (a', .ok p)) : p = a'.program := by
  rw [Assembly.Assembler.assemble] at h
  split at h
  · cases h
  · split at h <;> cases h
    rfl

theorem comesTo_assemble (source : List UInt8) (files : FileSystem) :
    ComesTo (assemble source) files
      (((Assembly.Assembler.assemble {} (.bytes source)).2.mapError .assembly).map
        fun _ => (Assembly.Assembler.assemble {} (.bytes source)).1) "" files := by
  rcases h : Assembly.Assembler.assemble {} (.bytes source) with ⟨a, result⟩
  have hrest : ∀ messages : Assembly.Program → List String,
      ComesTo (do
        let program ← ofExcept Failure.assembly result
        note .debug .assembler (messages program)
        return a) files ((result.mapError .assembly).map fun _ => a) "" files := by
    intro messages
    have hresult := comesTo_ofExcept Failure.assembly result files
    cases result with
    | error e => exact hresult.bind_error
    | ok program => exact hresult.bind_silent (comesTo_note_pure _ (by decide) _ _ _ _)
  -- whether the first pass has been noted makes no difference
  unfold assemble
  rw [h]
  exact .ite ((comesTo_note .debug (by decide) _ _ _).bind_silent (hrest _)) (hrest _)

theorem comesTo_loadHexListing (bytes : List UInt8) (files : FileSystem) :
    ComesTo (loadHexListing bytes) files (memoryOf .hexListing bytes) "" files := by
  refine (comesTo_ofExcept .unreadable _ files).seq fun text _ => ?_
  rw [← bind_pure ((HexListing.load text).mapError Failure.hexListing)]
  refine (comesTo_ofExcept .hexListing _ files).seq fun memory _ => ?_
  exact comesTo_note_pure _ (by decide) _ _ _ _

theorem comesTo_loadBinary (bytes : List UInt8) (files : FileSystem) :
    ComesTo (loadBinary bytes) files (memoryOf .binary bytes) "" files := by
  rw [memoryOf, ← bind_pure ((Binary.load bytes).mapError Failure.memory)]
  refine (comesTo_ofExcept .memory _ files).seq fun memory _ => ?_
  exact comesTo_note_pure _ (by decide) _ _ _ _

theorem comesTo_loadAssembly (bytes : List UInt8) (files : FileSystem) :
    ComesTo (do loadAssembled (← assemble bytes)) files (memoryOf .assembly bytes) "" files := by
  have hassemble := comesTo_assemble bytes files
  rw [memoryOf, Assembly.assemble]
  rcases h : Assembly.Assembler.assemble {} (.bytes bytes) with ⟨a, result⟩
  rw [h] at hassemble
  cases result with
  | error e => exact hassemble.bind_error
  | ok program =>
      obtain rfl := program_eq_of_assemble h
      exact hassemble.bind_silent (comesTo_ofExcept .memory _ files)

/-- **Loading comes to the memory of the file**, whatever it holds. -/
theorem comesTo_load (program : ProgramFile) (files : FileSystem) :
    ComesTo (load program) files (memoryIn files program) "" files := by
  have hnote : ∀ memory : Memory, ComesTo (note .info .toolkit
      [s!"Loaded {memory.length} word(s) from {String.ofList program.path.text}"]
        >>= fun _ => pure memory) files (.ok memory) "" files :=
    fun memory => comesTo_note_pure _ (by decide) _ _ _ _
  refine (comesTo_readFile program.path files).seq fun bytes _ => ?_
  rw [← bind_pure (memoryOf program.form bytes)]
  obtain ⟨path, form⟩ := program
  cases form with
  | hexListing => exact (comesTo_loadHexListing bytes files).seq fun memory _ => hnote memory
  | binary => exact (comesTo_loadBinary bytes files).seq fun memory _ => hnote memory
  | assembly =>
      have hassembly := (comesTo_loadAssembly bytes files).seq fun memory _ => hnote memory
      rwa [bind_assoc] at hassembly

/-! ## Playing a program -/

/-- **A program that has been loaded is played.** -/
theorem comesTo_execute {program : ProgramFile} {memory : Memory} {files : FileSystem}
    (h : memoryIn files program = .ok memory) (bound : Nat) (stdin : StandardInput)
    (prompting tracing : Bool) :
    ComesTo (execute bound stdin program prompting tracing) files
      (played bound stdin memory prompting tracing).1
      (played bound stdin memory prompting tracing).2 files := by
  have hload := comesTo_load program files
  rw [h] at hload
  refine hload.bind_silent ?_
  rw [played]
  simp only
  cases ({ memory, input := stdin.input, prompting, tracing } : Machine).runToHalt bound with
  | none => exact comesTo_throw .unfinished files
  | some r =>
      show ComesTo _ files (verdict stdin r.fault) r.machine.output.text files
      have hnote := fun level hlevel messages =>
        comesTo_note level hlevel Reporter.machine messages files
      refine (comesTo_print r.machine.output.text files).bind_last ?_
      refine (hnote .debug (by decide) _).bind_silent ?_
      cases r.fault with
      | none =>
          exact (hnote .debug (by decide) _).bind_silent
            (comesTo_note .info (by decide) _ _ _)
      | some fault => cases fault <;> exact comesTo_throw _ files

/-- A program that cannot be loaded is not played. -/
theorem comesTo_execute_of_error {program : ProgramFile} {failure : Failure}
    {files : FileSystem} (h : memoryIn files program = .error failure) (bound : Nat)
    (stdin : StandardInput) (prompting tracing : Bool) :
    ComesTo (execute bound stdin program prompting tracing) files (.error failure) "" files := by
  have hload := comesTo_load program files
  rw [h] at hload
  exact hload.bind_error

/-! ## Compiling -/

theorem comesTo_compiled {job : Compilation} (hlisting : job.showListing = false)
    (source : List UInt8) (files : FileSystem) :
    ComesTo (compiled job source) files (memoryOf (sourceForm job) source) "" files := by
  rw [compiled, sourceForm, hlisting]
  by_cases hhex : job.fromHexListing = true
  · rw [if_pos hhex, if_pos hhex]
    exact comesTo_loadHexListing source files
  · rw [if_neg hhex, if_neg hhex]
    exact comesTo_loadAssembly source files

/-- What a compilation reads comes to the memory of its source. -/
theorem comesTo_source {job : Compilation} (hlisting : job.showListing = false)
    (files : FileSystem) :
    ComesTo (do compiled job (← readFile job.input)) files
      (memoryIn files ⟨job.input, sourceForm job⟩) "" files :=
  (comesTo_readFile job.input files).seq fun source _ => comesTo_compiled hlisting source files

/-- **A program that has been loaded is written out.** -/
theorem comesTo_compile {job : Compilation} (hlisting : job.showListing = false)
    {output : Path} (houtput : job.output = some output) {files : FileSystem}
    {place : List Text} (hplace : files.locate output = .ok place) {memory : Memory}
    (h : memoryIn files ⟨job.input, sourceForm job⟩ = .ok memory) :
    ComesTo (compile job) files (.ok ()) "" (files.put place (image job memory)) := by
  have hsource := comesTo_source hlisting files
  rw [h] at hsource
  rw [compile, ← bind_assoc]
  refine hsource.bind_silent ?_
  rw [houtput]
  exact (comesTo_writeFile _ hplace).bind_silent (comesTo_note .info (by decide) _ _ _)

/-- A program that cannot be loaded is not written. -/
theorem comesTo_compile_of_error {job : Compilation} (hlisting : job.showListing = false)
    {files : FileSystem} {failure : Failure}
    (h : memoryIn files ⟨job.input, sourceForm job⟩ = .error failure) :
    ComesTo (compile job) files (.error failure) "" files := by
  have hsource := comesTo_source hlisting files
  rw [h] at hsource
  rw [compile, ← bind_assoc]
  exact hsource.bind_error

end Work

/-! ## Requests -/

/-- What is seen of a command that comes to a result. -/
def outcomeOf (result : Except Failure Unit) (printed : RawText) (after : FileSystem) :
    Outcome where
  ending := match result with
    | .ok () => .exit 0
    | .error failure => failure.ending
  stdout := printed
  stderr := match result with
    | .ok () => ""
    | .error failure => failure.report
  files := after

/-- **What a request leaves** if it is carried out without a log file and without
more said than usual. -/
theorem Request.run_of_comesTo {r : Request} (hlog : r.logFile = none)
    (hlevel : r.consoleLevel = .warning) {bound : Nat} {time : String} {files after : FileSystem}
    {stdin : StandardInput} {result : Except Failure Unit} {printed : RawText}
    (h : Work.ComesTo (Work.perform bound stdin r.command) files result printed after) :
    r.run bound time files stdin = outcomeOf result printed after := by
  have hstart : r.start time files = .ok { time, logFile := none, files } := by
    rw [Request.start, hlog]
  have hsilent : Session.Silent { time, logFile := none, files } := ⟨rfl, nofun⟩
  have hwork : Work.ComesTo (r.work bound stdin) files result printed after :=
    (Work.comesTo_note .debug (by decide) _ _ _).bind_silent h
  have hleaves := hwork _ hsilent rfl
  rw [Request.run, hstart]
  simp only
  rcases hrun : (r.work bound stdin).run.run { time, logFile := none, files } with ⟨result', s⟩
  rw [hrun] at hleaves
  obtain ⟨rfl, ⟨hlogFile, hcalm⟩, rfl, hstdout⟩ := hleaves
  -- no record is grave enough to be shown
  have hconsole : s.log.toList.filter (Record.isShown r.consoleLevel) = [] := by
    rw [hlevel, List.filter_eq_nil_iff]
    intro record hrecord
    rw [hcalm record hrecord]
    decide
  have hprinted : s.stdout = printed := by
    rw [hstdout]
    exact List.nil_append _
  have hlogFile : s.logFile = none := hlogFile
  simp only [hconsole, hprinted, hlogFile]
  cases result' <;> rfl

end IttyBitty.CommandLine
