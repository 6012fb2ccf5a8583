import IttyBitty.Proofs.CommandLine.Arguments
import IttyBitty.Proofs.CommandLine.Loading
import IttyBitty.Proofs.Files.Writing
import IttyBitty.Proofs.Memory.Formats
import IttyBitty.Proofs.Text.WellFormed

/-!
# All routes to a running machine agree

A program can be executed from its source, or be compiled first, to a hex
listing or to a binary image, and be executed from what was written. The memory
is the same on every route, and so is all that can be seen of the run. A source
that does not compile is refused in the same words when it is to be executed.
-/

namespace IttyBitty.Assembly

/-- The listing of an assembled program. -/
def Program.toHex (p : Program) : Text := HexListing.ofWords p.words

end IttyBitty.Assembly

namespace IttyBitty.CommandLine

/-! ## The memory of a program -/

/-- All forms of a program's words give one memory, and that is written in these
forms. -/
structure HasMemory (words : List Word) (m : Memory) : Prop where
  loaded : Memory.loadWords words = .ok m
  listed : HexListing.load (HexListing.ofWords words) = .ok m
  imaged : Binary.load (Binary.ofWords words) = .ok m
  listing : HexListing.ofMemory m = HexListing.ofWords words
  image : Binary.ofMemory m = Binary.ofWords words

theorem hasMemory_of_loadWords {words : List Word} {m : Memory}
    (h : Memory.loadWords words = .ok m) : HasMemory words m := by
  have hloaded := h
  rw [Memory.loadWords] at h
  split at h
  · rename_i hfits
    cases h
    refine ⟨hloaded, HexListing.load_ofWords hfits, Binary.load_ofWords hfits, ?_, ?_⟩
    · rw [HexListing.ofMemory, Memory.program_ofWords]
    · rw [Binary.ofMemory, Memory.program_ofWords]
  · cases h

/-- The bytes of a program in the form of a compiled file. -/
def compiledBytes (binary : Bool) (words : List Word) : List UInt8 :=
  if binary then Binary.ofWords words else Utf8.encode (HexListing.ofWords words)

/-- The form of a compiled file. -/
def compiledForm (binary : Bool) : ProgramForm := if binary then .binary else .hexListing

/-- **A compiled file holds the memory of its program.** -/
theorem HasMemory.memoryOf_compiledBytes {words : List Word} {m : Memory}
    (h : HasMemory words m) (binary : Bool) :
    memoryOf (compiledForm binary) (compiledBytes binary words) = .ok m := by
  cases binary with
  | true =>
      show (Binary.load (Binary.ofWords words)).mapError Failure.memory = _
      rw [h.imaged]
      rfl
  | false =>
      show ((Utf8.decode (Utf8.encode (HexListing.ofWords words))).mapError
        Failure.unreadable >>= fun text => (HexListing.load text).mapError .hexListing) = _
      rw [Utf8.decode_encode]
      show (HexListing.load (HexListing.ofWords words)).mapError Failure.hexListing = _
      rw [h.listed]
      rfl

theorem memoryIn_of_read {files : FileSystem} {path : Path} {bytes : List UInt8}
    (h : files.read path = .ok bytes) (form : ProgramForm) :
    memoryIn files ⟨path, form⟩ = memoryOf form bytes := by
  rw [memoryIn, h]
  rfl

/-- A program that has been written out is loaded from its new place. -/
theorem HasMemory.memoryIn_put {words : List Word} {m : Memory} (h : HasMemory words m)
    {files : FileSystem} {path : Path} {place : List Text}
    (hplace : files.locate path = .ok place) (binary : Bool) :
    memoryIn (files.put place (compiledBytes binary words)) ⟨path, compiledForm binary⟩
      = .ok m := by
  rw [memoryIn_of_read (FileSystem.read_put_self hplace _)]
  exact h.memoryOf_compiledBytes binary

theorem exists_program_of_memoryOf {source : List UInt8} {m : Memory}
    (h : memoryOf .assembly source = .ok m) :
    ∃ p, Assembly.assemble (.bytes source) = .ok p ∧ HasMemory p.words m := by
  rw [memoryOf] at h
  cases hp : Assembly.assemble (.bytes source) with
  | error e => rw [hp] at h; cases h
  | ok p =>
      rw [hp] at h
      have h : (Memory.loadWords p.words).mapError Failure.memory = .ok m := h
      refine ⟨p, rfl, hasMemory_of_loadWords ?_⟩
      cases hm : Memory.loadWords p.words with
      | error e => rw [hm] at h; cases h
      | ok m' => rw [hm] at h; cases h; rfl

/-! ## What is seen of a command -/

/-- The same is seen of both: what is printed and how it ends. -/
structure Outcome.Alike (o o' : Outcome) : Prop where
  stdout : o.stdout = o'.stdout
  stderr : o.stderr = o'.stderr
  ending : o.ending = o'.ending
  console : o.console = o'.console

theorem Outcome.Alike.refl (o : Outcome) : o.Alike o := ⟨rfl, rfl, rfl, rfl⟩

theorem Failure.ending_ne_exit_zero (failure : Failure) : failure.ending ≠ .exit 0 := by
  unfold Failure.ending
  split <;> nofun

variable {f g : Text} {files : FileSystem} {place : List Text} {m : Memory}
  {failure : Failure}

theorem run_executeLine (hf : IsPlain f) {form : ProgramForm}
    (h : memoryIn files ⟨Path.ofText f, form⟩ = .ok m) (silent : Bool) (bound : Nat)
    (time : String) (stdin : StandardInput) :
    run bound time (executeLine form silent f) files stdin =
      outcomeOf (played bound stdin m (!silent) false).1
        (played bound stdin m (!silent) false).2 files := by
  rw [run, ofArguments_executeLine hf]
  exact Request.run_of_comesTo rfl rfl (Work.comesTo_execute h bound stdin _ _)

theorem run_executeLine_of_error (hf : IsPlain f) {form : ProgramForm}
    (h : memoryIn files ⟨Path.ofText f, form⟩ = .error failure) (silent : Bool) (bound : Nat)
    (time : String) (stdin : StandardInput) :
    run bound time (executeLine form silent f) files stdin =
      outcomeOf (.error failure) "" files := by
  rw [run, ofArguments_executeLine hf]
  exact Request.run_of_comesTo rfl rfl (Work.comesTo_execute_of_error h bound stdin _ _)

theorem run_compileLine (hf : IsPlain f) (hg : IsPlain g)
    (h : memoryIn files ⟨Path.ofText f, .assembly⟩ = .ok m)
    (hplace : files.locate (Path.ofText g) = .ok place) {words : List Word}
    (hm : HasMemory words m) (binary : Bool) (bound : Nat) (time : String)
    (stdin : StandardInput) :
    run bound time (compileLine binary f g) files stdin =
      outcomeOf (.ok ()) "" (files.put place (compiledBytes binary words)) := by
  have hbytes : (if binary then Binary.ofMemory m else Utf8.encode (HexListing.ofMemory m))
      = compiledBytes binary words := by
    rw [hm.listing, hm.image]
    rfl
  rw [run, ofArguments_compileLine hf hg, ← hbytes]
  exact Request.run_of_comesTo rfl rfl (Work.comesTo_compile rfl rfl hplace h)

theorem run_compileLine_of_error (hf : IsPlain f) (hg : IsPlain g)
    (h : memoryIn files ⟨Path.ofText f, .assembly⟩ = .error failure) (binary : Bool)
    (bound : Nat) (time : String) (stdin : StandardInput) :
    run bound time (compileLine binary f g) files stdin =
      outcomeOf (.error failure) "" files := by
  rw [run, ofArguments_compileLine hf hg]
  exact Request.run_of_comesTo rfl rfl (Work.comesTo_compile_of_error rfl h)

/-- **All routes agree.** What compiling a readable source to another file leaves,
when it comes through, is executed just as the source itself is, for every bound
on the run; all forms of the program give the same memory. When it does not come
through, executing the source fails in the same way: the program is not even
loaded. -/
theorem routes_agree {f g : Text} (hf : IsPlain f) (hg : IsPlain g) {files : FileSystem}
    {source : List UInt8} {place : List Text}
    (hread : files.read (Path.ofText f) = .ok source)
    (hwrite : files.locate (Path.ofText g) = .ok place)
    (hne : files.locate (Path.ofText f) ≠ .ok place) (binary silent : Bool) (bound : Nat)
    (time₁ time₂ time₃ : String) (stdin : StandardInput) :
    let compiled := run bound time₁ (compileLine binary f g) files stdin
    let routed :=
      run bound time₂ (executeLine (compiledForm binary) silent g) compiled.files stdin
    let direct fs := run bound time₃ (executeLine .assembly silent f) fs stdin
    (compiled.ending = .exit 0 →
      (∀ fs ∈ [files, compiled.files], routed.Alike (direct fs)) ∧
      ∃ p m, Assembly.assemble (.bytes source) = .ok p ∧ HasMemory p.words m ∧
        HexListing.ofMemory m = p.toHex ∧
        compiled.files.file? place = some (compiledBytes binary p.words) ∧
        memoryOf (compiledForm binary) (compiledBytes binary p.words) = .ok m) ∧
    (compiled.ending ≠ .exit 0 →
      (direct files).Alike compiled ∧
      ∃ failure, Work.ComesTo (Work.load ⟨Path.ofText f, .assembly⟩) files (.error failure) ""
        files) := by
  intro compiled routed direct
  have hsource := memoryIn_of_read hread .assembly
  cases h : memoryOf .assembly source with
  | error failure =>
      -- both commands load the source first, and both fail there
      rw [h] at hsource
      have hcompiled : compiled = outcomeOf (.error failure) "" files :=
        run_compileLine_of_error hf hg hsource binary bound time₁ stdin
      have hdirect : direct files = outcomeOf (.error failure) "" files :=
        run_executeLine_of_error hf hsource silent bound time₃ stdin
      have hload := Work.comesTo_load ⟨Path.ofText f, .assembly⟩ files
      rw [hsource] at hload
      refine ⟨fun hzero => ?_, fun _ => ⟨?_, failure, hload⟩⟩
      · rw [hcompiled] at hzero
        exact absurd hzero failure.ending_ne_exit_zero
      · rw [hcompiled, hdirect]
        exact .refl _
  | ok m =>
      rw [h] at hsource
      obtain ⟨p, hp, hm⟩ := exists_program_of_memoryOf h
      have hcompiled : compiled =
          outcomeOf (.ok ()) "" (files.put place (compiledBytes binary p.words)) :=
        run_compileLine hf hg hsource hwrite hm binary bound time₁ stdin
      have hfiles : compiled.files = files.put place (compiledBytes binary p.words) := by
        rw [hcompiled]
        rfl
      have hrouted : memoryIn compiled.files ⟨Path.ofText g, compiledForm binary⟩ = .ok m := by
        rw [hfiles]
        exact hm.memoryIn_put hwrite binary
      have hreload := hm.memoryOf_compiledBytes binary
      refine ⟨fun _ => ⟨?_, p, m, hp, hm, hm.listing, ?_, hreload⟩, fun hfailed => ?_⟩
      · -- both play the same memory, wherever the source is read
        have hdirect : ∀ fs ∈ [files, compiled.files],
            memoryIn fs ⟨Path.ofText f, .assembly⟩ = .ok m := by
          rw [List.forall_mem_cons, List.forall_mem_singleton, hfiles]
          refine ⟨hsource, ?_⟩
          rw [memoryIn_of_read (FileSystem.read_put_of_ne hread hwrite hne _)]
          exact h
        intro fs hfs
        rw [show routed = _ from run_executeLine hg hrouted silent bound time₂ stdin,
          show direct fs = _ from run_executeLine hf (hdirect fs hfs) silent bound time₃ stdin]
        exact ⟨rfl, rfl, rfl, rfl⟩
      · rw [hfiles, FileSystem.file?_put, if_pos rfl]
      · rw [hcompiled] at hfailed
        exact absurd rfl hfailed

/-- A program that halts at once, compiled beside its source. -/
theorem routes_agree_halt :
    let files : FileSystem :=
      { here := [], files := [(["p".toList], Utf8.encode "halt".toList)], dirs := [] }
    let compiled := run 9 "" (compileLine true "p".toList "q".toList) files (.bytes [])
    compiled.ending = .exit 0 ∧
      (run 9 "" (executeLine .binary true "q".toList) compiled.files (.bytes [])).Alike
        (run 9 "" (executeLine .assembly true "p".toList) files (.bytes [])) := by
  intro files compiled
  have hroutes := routes_agree (f := "p".toList) (g := "q".toList) (by decide) (by decide)
    (show files.read (Path.ofText "p".toList) = .ok (Utf8.encode "halt".toList) from rfl)
    (show files.locate (Path.ofText "q".toList) = .ok ["q".toList] from rfl) (by decide)
    true true 9 "" "" "" (.bytes [])
  have hzero : compiled.ending = .exit 0 := by rfl
  exact ⟨hzero, (hroutes.1 hzero).1 files (List.mem_cons_self ..)⟩

end IttyBitty.CommandLine
