import IttyBitty.Proofs.Assembly.Numbering
import IttyBitty.Proofs.CommandLine.Results
import IttyBitty.Proofs.Debugger.Shell

/-!
# How requests end

How a request ends, and what is written on standard error, is determined by the result of its
command: success is the status 0 and says nothing, and each failure has a status and a message of
its own (`Ends`). Six kinds of failure are not answered. They are a log file that cannot be opened,
a null character in a path, an output without a name, commands for the debugger that cannot be
decoded, a numeral that is too long to be read, and a line for a character that holds a surrogate.
-/

namespace IttyBitty

/-! ## Null characters -/

/-- There is a null character in a name of the path. -/
def Path.HasNull (p : Path) : Prop := ∃ name ∈ p.names, '\x00' ∈ name

namespace FileSystem

variable {fs : FileSystem}

theorem enter_ne_nullInPath (fs : FileSystem) (place : List Text) (name : Text) :
    fs.enter place name ≠ .error .nullInPath := by
  rw [enter]
  by_cases hparent : name = Path.parent
  · rw [if_pos hparent]
    rintro ⟨⟩
  by_cases hlong : isTooLong name = true
  · rw [if_neg hparent, if_pos hlong]
    rintro ⟨⟩
  by_cases hdir : fs.isDir (place ++ [name]) = true
  · rw [if_neg hparent, if_neg hlong, if_pos hdir]
    rintro ⟨⟩
  rw [if_neg hparent, if_neg hlong, if_neg hdir]
  split <;> rintro ⟨⟩

theorem follow_ne_nullInPath (place names : List Text) :
    fs.follow place names ≠ .error .nullInPath := by
  induction names generalizing place with
  | nil => rintro ⟨⟩
  | cons name rest ih =>
      cases rest with
      | nil =>
          rw [follow]
          by_cases hparent : name = Path.parent
          · rw [if_pos hparent]
            rintro ⟨⟩
          by_cases hlong : isTooLong name = true
          · rw [if_neg hparent, if_pos hlong]
            rintro ⟨⟩
          rw [if_neg hparent, if_neg hlong]
          split <;> rintro ⟨⟩
      | cons name' rest =>
          have hstep : fs.follow place (name :: name' :: rest)
              = (fs.enter place name).bind fun next => fs.follow next (name' :: rest) := rfl
          rw [hstep]
          have henter := fs.enter_ne_nullInPath place name
          cases hplace : fs.enter place name with
          | error error =>
              rw [hplace] at henter
              exact henter
          | ok next => exact ih next

/-- The error of a null character comes from a path that has one. -/
theorem hasNull_of_locate {p : Path} (h : fs.locate p = .error .nullInPath) : p.HasNull := by
  rw [locate] at h
  split at h
  · rename_i hnull
    obtain ⟨name, hname, hmem⟩ := List.any_eq_true.mp hnull
    exact ⟨name, hname, by simpa using hmem⟩
  · split at h
    · cases h
    · exact absurd h (follow_ne_nullInPath _ _)

/-- So does the error of what is done at the place of a path, unless it is made there. -/
theorem hasNull_of_bind {α : Type} {p : Path} {act : List Text → Except FileError α}
    (hact : ∀ place, act place ≠ .error .nullInPath)
    (h : (fs.locate p >>= act) = .error .nullInPath) : p.HasNull := by
  cases hplace : fs.locate p with
  | error error =>
      rw [hplace] at h
      cases h
      exact hasNull_of_locate hplace
  | ok place =>
      rw [hplace] at h
      exact absurd h (hact place)

theorem hasNull_of_read {p : Path} (h : fs.read p = .error .nullInPath) : p.HasNull := by
  refine hasNull_of_bind (fun place => ?_) h
  split <;> intro h <;> cases h

end FileSystem

namespace CommandLine

open StandardInput (decodeFrom)

/-! ## Surrogates -/

/-- Bytes that are decoded give no surrogates. -/
theorem surrogate_notMem_decodeFrom (n : Fin 2048) (p : StandardInput.Pending) (bs : List UInt8) :
    .surrogate n ∉ (decodeFrom p bs).unread := by
  have hofText (t : Text) : CodePoint.surrogate n ∉ RawText.ofText t := by simp [RawText.ofText]
  fun_induction decodeFrom p bs with
  | case1 p bs hempty =>
      rw [StandardInput.finish]
      split
      · exact List.not_mem_nil
      · split <;> simp [Input.unread]
  | case2 p bs hmore piece next hblock rest ih =>
      rw [StandardInput.decodeBlock] at hblock
      have hpiece : ∀ t, piece = .text t → .surrogate n ∉ t := by
        rintro t rfl
        split at hblock
        · cases hblock
        · cases hblock
          exact hofText _
      cases piece with
      | failure => exact ih
      | text t =>
          show _ ∉ t ++ rest.unread
          rw [List.mem_append, not_or]
          exact ⟨hpiece t rfl, ih⟩

/-- Surrogates come from a text that has been decoded before. -/
theorem decoded_of_surrogate {stdin : StandardInput} {n : Fin 2048}
    (h : .surrogate n ∈ stdin.input.unread) : ∃ t, stdin = .decoded t ∧ .surrogate n ∈ t := by
  cases stdin with
  | bytes bs => exact absurd h (surrogate_notMem_decodeFrom n _ bs)
  | decoded t =>
      refine ⟨t, rfl, ?_⟩
      simpa [StandardInput.input, Input.ofText, Input.unread] using h
  | interrupted => exact absurd h List.not_mem_nil

/-! ## Endings -/

/-- How a command ends that has come to a result, with what is written on standard error. Success
is the status 0, an interruption the status 130, and a failure that is answered the status 1 with
one message. A command that runs a program may go on beyond its bound. -/
inductive Ends (c : Command) (stdin : StandardInput) :
    Except Failure Unit → Ending → RawText → Prop
  | done : Ends c stdin (.ok ()) (.exit 0) ""
  | file {error : FileError} {path : Path} (hpath : path ∈ c.paths) (hnull : error ≠ .nullInPath) :
      Ends c stdin (.error (.file error path)) (.exit 1) s!"error: {error.message path}\n"
  | unreadable {failure : Failure} {fault : Utf8.Fault}
      (h : failure = .unreadable fault ∨ failure = .assembly (.unreadable fault)) :
      Ends c stdin (.error failure) (.exit 1) s!"error: {Source.unreadableMessage fault}\n"
  | problem {problem : Assembly.Problem} (number : Nat) (line : Text)
      (hread : problem ≠ .amountTooLong) :
      Ends c stdin (.error (.assembly (.line problem number line))) (.exit 1)
        s!"Assembly error: Line {number}: {problem.message}\n"
  | tooManyStatements :
      Ends c stdin (.error (.assembly .tooManyStatements)) (.exit 1)
        "error: program too long: more than 65535 statements\n"
  | hexListing (error : HexListing.Error) :
      Ends c stdin (.error (.hexListing error)) (.exit 1) s!"error: {error.message}\n"
  | memory (error : Memory.Error) :
      Ends c stdin (.error (.memory error)) (.exit 1) s!"error: {error.message}\n"
  | frontEnd {input : Path} {showTokens : Bool} (hc : c = .parse input showTokens)
      {error : Ibcmc.FrontEndError}
      (hread : ∀ digits place, error ≠ .lexical (.badLiteral .tooLong digits place)) :
      Ends c stdin (.error (.frontEnd error)) (.exit 1) s!"{error.message}\n"
  | fault {cause : Fault} (hreads : c.readsInput = true) (hown : cause.isOwn = true)
      (hinput : cause = .inputFailed → stdin ≠ .interrupted) :
      Ends c stdin (.error (.fault cause)) (.exit 1) ("error: " ++ cause.message ++ "\n")
  | interrupted (hreads : c.readsInput = true) (hstdin : stdin = .interrupted) :
      Ends c stdin (.error .interrupted) (.exit 130) "\n"
  | unfinished (hreads : c.readsInput = true) : Ends c stdin (.error .unfinished) .unfinished ""
  -- from here on nothing is answered
  | nullInPath {path : Path} (hpath : path ∈ c.paths) (hnull : path.HasNull) :
      Ends c stdin (.error (.file .nullInPath path)) (.escaped .nullInPath) ""
  | namelessOutput {job : Compilation} (hc : c = .compile job) (houtput : job.output = none) :
      Ends c stdin (.error .namelessOutput) (.escaped .namelessOutput) ""
  | undecodable {program : ProgramFile} (hc : c = .debug program)
      (hstdin : stdin ≠ .interrupted) (hinput : ¬ stdin.input.Works) :
      Ends c stdin (.error .undecodableCommands) (.escaped .undecodableCommands) ""
  | amountTooLong :
      Ends c stdin (.error (.assembly .amountTooLong)) (.escaped .longNumeral) ""
  | literalTooLong {input : Path} {showTokens : Bool} (hc : c = .parse input showTokens)
      (digits : Text) (place : Ibcmc.Position) :
      Ends c stdin (.error (.frontEnd (.lexical (.badLiteral .tooLong digits place))))
        (.escaped .longNumeral) ""
  | unencodable {line t : RawText} (hreads : c.readsInput = true) (hstdin : stdin = .decoded t)
      (hsurrogate : ∃ n, .surrogate n ∈ t) :
      Ends c stdin (.error (.fault (.unencodable line))) (.escaped .unencodableLine) ""

variable {c : Command} {stdin : StandardInput} {result : Except Failure Unit} {failure : Failure}
  {ending : Ending} {text : RawText}

/-- No command opens a log file. -/
theorem Ends.ne_logFile (h : Ends c stdin result ending text) (error : FileError) :
    ending ≠ .escaped (.logFile error) := by
  cases h <;> nofun

theorem Ends.of_ok (h : Ends c stdin (.ok ()) ending text) : ending = .exit 0 ∧ text = "" := by
  cases h
  exact ⟨rfl, rfl⟩

/-- The report of a problem names the line. -/
theorem report_problem (problem : Assembly.Problem) (number : Nat) (line : Text) :
    (Failure.assembly (.line problem number line)).report =
      s!"Assembly error: Line {number}: {problem.message}\n" := by
  have hopening : "Assembly error: Line " = "Assembly error: " ++ "Line " := rfl
  show RawText.ofString ("Assembly error: " ++ ("Line " ++ toString number ++ ": " ++
    problem.message) ++ "\n") = RawText.ofString ("Assembly error: Line " ++ toString number ++
      ": " ++ problem.message ++ "\n")
  rw [hopening]
  simp only [String.append_assoc]

/-- A failure has one ending and one message. -/
theorem Ends.of_error (h : Ends c stdin (.error failure) ending text) :
    ending = failure.ending ∧ text = failure.report := by
  cases h with
  | @file error path _ hnull =>
      cases error with
      | nullInPath => exact absurd rfl hnull
      | _ => exact ⟨rfl, rfl⟩
  | unreadable h => rcases h with rfl | rfl <;> exact ⟨rfl, rfl⟩
  | problem number line => exact ⟨rfl, (report_problem _ number line).symm⟩
  | @frontEnd _ _ _ error hread =>
      rcases error with (⟨_ | _, digits, place⟩ | _) | _
      case frontEnd.lexical.badLiteral.tooLong => exact absurd rfl (hread digits place)
      all_goals exact ⟨rfl, rfl⟩
  | @fault cause _ hown =>
      cases cause with
      | unencodable line => cases hown
      | _ => exact ⟨rfl, rfl⟩
  | _ => exact ⟨rfl, rfl⟩

/-! ## What commands fail with -/

/-- The failure ends the command in one of these ways. -/
def Answers (c : Command) (stdin : StandardInput) (failure : Failure) : Prop :=
  Ends c stdin (.error failure) failure.ending failure.report

theorem bind_eq_error_iff {ε α β : Type} {x : Except ε α} {f : α → Except ε β} {e : ε} :
    (x >>= f) = .error e ↔ x = .error e ∨ ∃ a, x = .ok a ∧ f a = .error e := by
  cases x <;> simp [bind, Except.bind]

theorem mapError_eq_error_iff {ε ε' α : Type} {cause : ε → ε'} {x : Except ε α} {e' : ε'} :
    x.mapError cause = .error e' ↔ ∃ e, x = .error e ∧ cause e = e' := by
  cases x <;> simp [Except.mapError]

variable {files : FileSystem} {bytes : List UInt8}

theorem answers_file {error : FileError} {path : Path} (hpath : path ∈ c.paths)
    (hnull : error = .nullInPath → path.HasNull) : Answers c stdin (.file error path) := by
  cases error with
  | nullInPath => exact .nullInPath hpath (hnull rfl)
  | notFound => exact .file hpath nofun
  | notADirectory => exact .file hpath nofun
  | isADirectory => exact .file hpath nofun
  | nameTooLong => exact .file hpath nofun

theorem answers_read {path : Path} (hpath : path ∈ c.paths)
    (h : (files.read path).mapError (.file · path) = .error failure) :
    Answers c stdin failure := by
  obtain ⟨error, hread, rfl⟩ := mapError_eq_error_iff.mp h
  refine answers_file hpath ?_
  rintro rfl
  exact FileSystem.hasNull_of_read hread

theorem answers_assembly {error : Assembly.Error}
    (h : Assembly.assemble (.bytes bytes) = .error error) :
    Answers c stdin (.assembly error) := by
  cases error with
  | line problem number line =>
      rw [Answers, report_problem]
      exact .problem number line (Assembly.ne_amountTooLong_of_assemble h)
  | tooManyStatements => exact .tooManyStatements
  | amountTooLong => exact .amountTooLong
  | unreadable fault => exact .unreadable (.inr rfl)

/-- Bytes that hold no program are answered. -/
theorem answers_memoryOf {form : ProgramForm} (h : memoryOf form bytes = .error failure) :
    Answers c stdin failure := by
  cases form with
  | hexListing =>
      rcases bind_eq_error_iff.mp h with h | ⟨t, -, h⟩
      · obtain ⟨fault, -, rfl⟩ := mapError_eq_error_iff.mp h
        exact .unreadable (.inl rfl)
      · obtain ⟨error, -, rfl⟩ := mapError_eq_error_iff.mp h
        exact .hexListing error
  | binary =>
      obtain ⟨error, -, rfl⟩ := mapError_eq_error_iff.mp h
      exact .memory error
  | assembly =>
      rcases bind_eq_error_iff.mp h with h | ⟨p, -, h⟩
      · obtain ⟨error, herror, rfl⟩ := mapError_eq_error_iff.mp h
        exact answers_assembly herror
      · obtain ⟨error, -, rfl⟩ := mapError_eq_error_iff.mp h
        exact .memory error

theorem answers_memoryIn {program : ProgramFile} (hpath : program.path ∈ c.paths)
    (h : memoryIn files program = .error failure) : Answers c stdin failure := by
  rcases bind_eq_error_iff.mp h with h | ⟨bytes, -, h⟩
  · exact answers_read hpath h
  · exact answers_memoryOf h

theorem answers_output {job : Compilation} (h : outputResult job files = .error failure) :
    Answers (.compile job) stdin failure := by
  rw [outputResult] at h
  cases houtput : job.output with
  | none =>
      rw [houtput] at h
      cases h
      exact .namelessOutput rfl houtput
  | some output =>
      rw [houtput] at h
      have hmem : output ∈ (Command.compile job).paths := by simp [Command.paths, houtput]
      rcases bind_eq_error_iff.mp h with h | ⟨place, -, h⟩
      · obtain ⟨error, hlocate, rfl⟩ := mapError_eq_error_iff.mp h
        refine answers_file hmem ?_
        rintro rfl
        exact FileSystem.hasNull_of_locate hlocate
      · cases h

/-- A failure to read is an interruption or is answered as it is. -/
theorem answers_inputFailure (hreads : c.readsInput = true)
    (h : stdin ≠ .interrupted → Answers c stdin failure) :
    Answers c stdin (Work.inputFailure stdin failure) := by
  cases stdin with
  | bytes bs => exact h nofun
  | decoded t => exact h nofun
  | interrupted => exact .interrupted hreads rfl

/-- A fault is answered, unless a line with a surrogate has been read for a character. -/
theorem answers_fault {fault : Fault} (hreads : c.readsInput = true)
    (hinput : fault = .inputFailed → stdin ≠ .interrupted)
    (hsurrogate : fault.isOwn = false → ∃ n, .surrogate n ∈ stdin.input.unread) :
    Answers c stdin (.fault fault) := by
  cases fault with
  | unencodable line =>
      obtain ⟨n, hn⟩ := hsurrogate rfl
      obtain ⟨t, hstdin, ht⟩ := decoded_of_surrogate hn
      exact .unencodable hreads hstdin ⟨n, ht⟩
  | _ => exact .fault hreads rfl hinput

theorem answers_played {memory : Memory} {prompting tracing : Bool} {bound : Nat}
    (hreads : c.readsInput = true)
    (h : (played bound stdin memory prompting tracing).1 = .error failure) :
    Answers c stdin failure := by
  rw [played] at h
  cases hrun : ({ memory, input := stdin.input, prompting, tracing } : Machine).runToHalt bound with
  | none =>
      rw [hrun] at h
      cases h
      exact .unfinished hreads
  | some r =>
      rw [hrun] at h
      have hverdict : verdict stdin r.fault = .error failure := h
      have hsurrogate {fault : Fault} (hfault : r.fault = some fault)
          (hown : fault.isOwn = false) : ∃ n, .surrogate n ∈ stdin.input.unread := by
        obtain ⟨rfl, -⟩ := Machine.runToHalt_eq_some_iff.mp hrun
        obtain ⟨k, -, -, hstep⟩ := Machine.step_of_run_fault hfault
        exact Machine.surrogate_of_steps hstep hown
      unfold verdict at hverdict
      split at hverdict
      · cases hverdict
        refine answers_inputFailure hreads fun hstdin => ?_
        exact .fault hreads rfl fun _ => hstdin
      · rename_i fault hother hfault
        cases hverdict
        refine answers_fault hreads (fun hinput => absurd hinput ?_) (hsurrogate hfault)
        rintro rfl
        exact hother rfl
      · cases hverdict

theorem answers_session {memory : Memory} {bound : Nat} {program : ProgramFile}
    (h : sessionVerdict stdin ((debuggerOf stdin memory).shell Debugger.shellPrompt bound).2 =
      .error failure) : Answers (.debug program) stdin failure := by
  let d := debuggerOf stdin memory
  cases hending : (d.shell Debugger.shellPrompt bound).2 with
  | quit =>
      rw [hending] at h
      cases h
  | inputEnded =>
      rw [hending] at h
      cases h
  | inputFailed =>
      rw [hending] at h
      cases h
      refine answers_inputFailure rfl fun hstdin => .undecodable rfl hstdin fun hworks => ?_
      have hshares : d.Shares := ⟨rfl, hworks, rfl⟩
      exact hshares.session _ _ _ hending
  | escaped fault =>
      rw [hending] at h
      cases h
      obtain ⟨hown, hsurrogate⟩ := Debugger.surrogate_of_session hending
      refine answers_fault rfl ?_ fun _ => hsurrogate
      rintro rfl
      cases hown
  | unfinished =>
      rw [hending] at h
      cases h
      exact .unfinished rfl

theorem answers_source {input : Path} {showTokens : Bool} {t : Text}
    (h : sourceResult showTokens t = .error failure) :
    Answers (.parse input showTokens) stdin failure := by
  have hfrontEnd (error : Ibcmc.FrontEndError) :
      Answers (.parse input showTokens) stdin (.frontEnd error) := by
    rcases error with (⟨_ | _, digits, place⟩ | _) | _
    case lexical.badLiteral.tooLong => exact .literalTooLong rfl digits place
    all_goals exact .frontEnd rfl nofun
  cases showTokens with
  | true =>
      rcases bind_eq_error_iff.mp h with h | ⟨tokens, -, h⟩
      · obtain ⟨error, -, rfl⟩ := mapError_eq_error_iff.mp h
        exact hfrontEnd (.lexical error)
      · cases h
  | false =>
      rcases bind_eq_error_iff.mp h with h | ⟨tree, -, h⟩
      · obtain ⟨error, -, rfl⟩ := mapError_eq_error_iff.mp h
        exact hfrontEnd error
      · cases h

/-- **Every failure of a command** ends it in one of these ways. -/
theorem answers_result {bound : Nat} (h : c.result bound stdin files = .error failure) :
    Answers c stdin failure := by
  cases c with
  | compile job =>
      rcases bind_eq_error_iff.mp h with h | ⟨memory, -, h⟩
      · exact answers_memoryIn (List.mem_cons_self ..) h
      · exact answers_output h
  | execute program prompting tracing =>
      rcases bind_eq_error_iff.mp h with h | ⟨memory, -, h⟩
      · exact answers_memoryIn (List.mem_cons_self ..) h
      · exact answers_played rfl h
  | debug program =>
      rcases bind_eq_error_iff.mp h with h | ⟨memory, -, h⟩
      · exact answers_memoryIn (List.mem_cons_self ..) h
      · exact answers_session h
  | parse input showTokens =>
      rcases bind_eq_error_iff.mp h with h | ⟨bytes, -, h⟩
      · exact answers_read (List.mem_cons_self ..) h
      rcases bind_eq_error_iff.mp h with h | ⟨t, -, h⟩
      · obtain ⟨fault, -, rfl⟩ := mapError_eq_error_iff.mp h
        exact .unreadable (.inl rfl)
      · exact answers_source h

/-! ## Requests -/

/-- **How every request ends**: a log file that cannot be opened is not answered, and no
work is done then; else it ends as the result of its command says, and in no other way. -/
theorem request_ends (r : Request) (bound : Nat) (time : String) (files : FileSystem)
    (stdin : StandardInput) :
    (∀ error, (r.run bound time files stdin).ending = .escaped (.logFile error) ↔
        r.found time files = .error error) ∧
      ∀ found, r.found time files = .ok found → ∀ ending text,
        Ends r.command stdin (r.command.result bound stdin found) ending text ↔
          (r.run bound time files stdin).ending = ending ∧
            (r.run bound time files stdin).stderr = text := by
  cases hstart : r.start time files with
  | error error =>
      have hfound : r.found time files = .error error := by
        rw [Request.found, hstart]
        rfl
      rw [Request.run, hstart, hfound]
      refine ⟨fun error' => by simp, ?_⟩
      rintro _ ⟨⟩
  | ok s =>
      have hfound := Request.found_of_start hstart
      have hresult := Request.result_work hstart bound stdin
      rw [hfound]
      have hends : ∀ ending text,
          Ends r.command stdin (r.command.result bound stdin (r.announce.run.run s).2.files)
              ending text ↔
            (r.run bound time files stdin).ending = ending ∧
              (r.run bound time files stdin).stderr = text := by
        intro ending text
        rw [Request.run, hstart, ← hresult]
        dsimp only
        rcases hwork : (r.work bound stdin).run.run s with ⟨failure | _, s'⟩
        · rw [hwork] at hresult
          constructor
          · exact fun h => h.of_error.imp Eq.symm Eq.symm
          · rintro ⟨rfl, rfl⟩
            exact answers_result hresult.symm
        · constructor
          · exact fun h => h.of_ok.imp Eq.symm Eq.symm
          · rintro ⟨rfl, rfl⟩
            exact .done
      refine ⟨fun error => ⟨fun hlog => ?_, fun hlog => ?_⟩, ?_⟩
      · exact absurd hlog (((hends _ _).mpr ⟨rfl, rfl⟩).ne_logFile error)
      · cases hlog
      · rintro _ ⟨⟩
        exact hends

/-- A byte that begins no character is a block that cannot be read. -/
theorem input_of_stray_byte :
    (StandardInput.bytes [0xff, 0x0a]).input = { pieces := [.failure] } := by
  have hblock : StandardInput.decodeBlock {} (List.take StandardInput.blockSize [0xff, 0x0a]) =
      (.failure, {}) := by rfl
  have hdrop : List.drop StandardInput.blockSize [(0xff : UInt8), 0x0a] = [] := by rfl
  rw [StandardInput.input, StandardInput.decodeFrom, if_neg (by decide), hblock, hdrop]
  dsimp only
  rw [StandardInput.decodeFrom, if_pos (by decide)]
  rfl

/-- **Not every failure is answered**: neither a directory for a log file is, nor a stray
byte in the commands for the debugger. -/
theorem failures_escape :
    let files : FileSystem :=
      { here := [], files := [(["f".toList], [0x68, 0x61, 0x6c, 0x74, 0x0a])],
        dirs := [["d".toList]] }
    (run 10 "" (["--log-file", "d", "compile", "f"].map String.toList) files
        (.bytes [])).ending = .escaped (.logFile .isADirectory) ∧
      (run 10 "" (["debug", "-s", "f"].map String.toList) files
        (.bytes [0xff, 0x0a])).ending = .escaped .undecodableCommands := by
  intro files
  have hinvocation : Invocation.ofArguments (["debug", "-s", "f"].map String.toList) =
      .request { verbosity := 0, quiet := false, logFile := none,
                 command := .debug ⟨Path.ofText "f".toList, .assembly⟩ } := by rfl
  constructor
  · rfl
  · simp only [run, hinvocation, Request.run, Request.work, Work.perform, Work.debug,
      input_of_stray_byte]
    rfl

end CommandLine

end IttyBitty
