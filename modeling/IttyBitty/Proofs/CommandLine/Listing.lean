import IttyBitty.Proofs.Assembly.Listing
import IttyBitty.Proofs.CommandLine.Compiling
import IttyBitty.Proofs.CommandLine.Logging

/-!
# The listing shows what is written

A compilation that lists its program prints the listing and nothing else, and the file that it
writes has the words of the listing one after another. A log file makes no difference, unless
it is the output file itself: then records follow the words.
-/

namespace IttyBitty.CommandLine

open Assembly (Assembler isPlaced addressColumn wordColumn titles IsListing)

variable {job : Compilation} {s s' : Session}

/-! ## The work -/

namespace Work

/-- A source that is listed has been assembled to the words that are loaded. -/
theorem Through.compiled (hs : s.Anchored) (hform : job.fromHexListing = false)
    (hlisting : job.showListing = true) {source : List UInt8} {memory : Memory}
    (h : Through (compiled job source) s memory s') :
    ∃ a p, Assembler.assemble {} (.bytes source) = (a, .ok p) ∧
      Memory.loadWords p.words = .ok memory ∧ s.Prints s' (a.listing ++ "\n") := by
  rw [Work.compiled, hform, hlisting] at h
  obtain ⟨a, mid, hassemble, h⟩ := through_bind_iff.mp h
  obtain ⟨p, hp, hquiet⟩ := hassemble.assemble hs
  obtain ⟨_, last, hprint, h⟩ := through_bind_iff.mp h
  obtain ⟨hload, rfl⟩ := through_ofExcept_iff.mp h
  obtain rfl := program_eq_of_assemble hp
  refine ⟨a, _, hp, hload, ?_⟩
  exact hquiet.trans hprint.prints_print

/-- What has been done in a session when a compilation with a listing has come through. -/
structure Lists (job : Compilation) (s s' : Session) (source : List UInt8)
    (a : Assembler) (p : Assembly.Program) (output : Path) (more : List UInt8) : Prop where
  read : s.files.read job.input = .ok source
  assembled : Assembler.assemble {} (.bytes source) = (a, .ok p)
  printed : s'.stdout = s.stdout ++ (a.listing ++ "\n")
  named : job.output = some output
  written : s'.files.read output = .ok (written job p.words ++ more)
  alone : (∀ place, s.files.locate output = .ok place → s.logFile ≠ some place) → more = []
  logFile : s'.logFile = s.logFile

theorem Through.compile (hs : s.Anchored) (hform : job.fromHexListing = false)
    (hlisting : job.showListing = true) {u : Unit} (h : Through (compile job) s u s') :
    ∃ source a p output more, Lists job s s' source a p output more := by
  rw [Work.compile] at h
  obtain ⟨source, start, hstart, h⟩ := through_bind_iff.mp h
  obtain ⟨hread, rfl⟩ := through_readFile_iff.mp hstart
  obtain ⟨memory, mid, hcompiled, h⟩ := through_bind_iff.mp h
  obtain ⟨a, p, hassemble, hload, hprints⟩ := hcompiled.compiled hs hform hlisting
  cases houtput : job.output with
  | none =>
      rw [houtput] at h
      exact absurd h not_through_throw
  | some output =>
      rw [houtput] at h
      obtain ⟨_, last, hwrite, h⟩ := through_bind_iff.mp h
      rw [image_eq_written hload] at hwrite
      obtain ⟨place, hplace, rfl⟩ := through_writeFile_iff.mp hwrite
      have hreachable := FileSystem.reachable_of_locate hplace
      have hnote := h.prints_note ((hprints.anchored hs).put hreachable _)
      have hput := FileSystem.file?_put mid.files place place (written job p.words)
      rw [if_pos rfl] at hput
      obtain ⟨more, hmore⟩ := hnote.files.kept place _ hput
      refine ⟨source, a, p, output, more, hread, hassemble, ?_, houtput, ?_, ?_, ?_⟩
      · rw [hnote.stdout, RawText.ofString_empty, List.append_nil]
        exact hprints.stdout
      · refine FileSystem.read_eq_ok_iff.mpr ⟨place, ?_, hmore⟩
        exact hnote.files.locate_eq_ok_iff.mpr (FileSystem.locate_put hreachable hplace)
      · intro hlog
        have hne : s.logFile ≠ some place := hlog place (hprints.files.locate_eq_ok_iff.mp hplace)
        rw [← hprints.logFile] at hne
        have hsame := hnote.files.others place hne
        rw [hmore, hput] at hsame
        simpa using hsame
      · exact hnote.logFile.trans hprints.logFile

end Work

/-! ## Command lines -/

/-- What the words in the columns of a listing are written as: each on a line of its own, or as
the low and the high byte of its number. -/
def spelled (job : Compilation) (rows : List Text) : List UInt8 :=
  if job.toBinary then
    (rows.filter isPlaced).flatMap fun row =>
      [UInt8.ofNat (Hex.number (wordColumn row) % 256),
        UInt8.ofNat (Hex.number (wordColumn row) / 256)]
  else Utf8.encode ((rows.filter isPlaced).flatMap fun row => wordColumn row ++ ['\n'])

theorem spelled_eq_written {k : Nat} {raws rows : List Text} {ws : List Word}
    (h : IsListing k raws ws rows) : spelled job rows = written job ws := by
  rw [spelled, written]
  split
  · have hnumbers := congrArg (List.flatMap fun n : Nat =>
      [UInt8.ofNat (n % 256), UInt8.ofNat (n / 256)]) h.number_wordColumn
    rwa [List.flatMap_map, List.flatMap_map] at hnumbers
  · have hcolumns := congrArg (List.flatMap fun column : Text => column ++ ['\n']) h.words
    rw [List.flatMap_map, List.flatMap_map] at hcolumns
    rw [hcolumns]

/-- A compilation with a listing has printed the rows of the listing of a source, and the output
file has the words in their columns. The source is what the input file holds, and nothing is
behind the words, if these files are not the log file. -/
structure ShowsOutput (job : Compilation) (files : FileSystem) (o : Outcome)
    (source : List UInt8) (rows : List Text) (output : Path) (more : List UInt8) : Prop where
  read : (∀ place, files.locate job.input = .ok place → o.logFile ≠ some place) →
    files.read job.input = .ok source
  listed : ∃ a p, Assembler.assemble {} (.bytes source) = (a, .ok p) ∧
    o.stdout = a.listing ++ "\n" ∧ a.listing.toList.splitOn '\n' = titles ++ rows
  named : job.output = some output
  written : o.files.read output = .ok (spelled job rows ++ more)
  alone : (∀ place, files.locate output = .ok place → o.logFile ≠ some place) → more = []

theorem Request.showsOutput {r : Request} (hcommand : r.command = .compile job)
    (hform : job.fromHexListing = false) (hlisting : job.showListing = true) {bound : Nat}
    {time : String} {files : FileSystem} {stdin : StandardInput}
    (hdone : (r.run bound time files stdin).ending = .exit 0) :
    ∃ source rows output more,
      ShowsOutput job files (r.run bound time files stdin) source rows output more := by
  obtain ⟨start, last, hstart, hwork, hstdout, hlogFile, hfiles⟩ := Request.through_of_run hdone
  obtain ⟨hanchored, hgrows, hempty⟩ := Request.grows_of_start hstart
  rw [Request.work, hcommand] at hwork
  obtain ⟨_, mid, hnote, hcompile⟩ := Work.through_bind_iff.mp hwork
  have hprints := hnote.prints_note hanchored
  obtain ⟨source, a, p, output, more, hlists⟩ :=
    Work.Through.compile (hprints.anchored hanchored) hform hlisting hcompile
  obtain ⟨t, rows, -, hrows, hrowed⟩ := Assembly.listing_of_assemble hlists.assembled
  -- up to the reading of the source nothing has happened but that the log has grown
  have hquiet : FileSystem.Grows mid.logFile files mid.files := by
    rw [hprints.logFile]
    exact hgrows.trans hprints.files
  rw [hlists.logFile] at hlogFile
  refine ⟨source, rows, output, more, ?_, ⟨a, p, hlists.assembled, ?_, hrows⟩, hlists.named,
    ?_, ?_⟩
  · intro hinput
    rw [hlogFile] at hinput
    exact (hquiet.read_eq_ok_iff hinput).mp hlists.read
  · rw [hstdout, hlists.printed, hprints.stdout, hempty, RawText.ofString_empty,
      List.nil_append, List.nil_append]
  · rw [hfiles, spelled_eq_written hrowed]
    exact hlists.written
  · intro houtput
    rw [hlogFile] at houtput
    exact hlists.alone fun place hplace => houtput place (hquiet.locate_eq_ok_iff.mp hplace)

/-- **The listing is the program.** Whatever a source that assembles holds and whatever has been
assembled before, its listing shows each line that is not blank and, beside the statements, the
addresses from zero on and the words of the program. The words that a compilation writes are
those that it lists. -/
theorem listing_is_program :
    (∀ (before : Assembler) (source : Source) (a : Assembler) (p : Assembly.Program),
      before.assemble source = (a, .ok p) →
        ∃ t rows, source.decode = .ok t ∧ a.listing.toList.splitOn '\n' = titles ++ rows ∧
          IsListing 0 (Text.lines t) p.words rows) ∧
    ∀ (bound : Nat) (time : String) (arguments : List Text) (files : FileSystem)
      (stdin : StandardInput) (r : Request) (job : Compilation),
      Invocation.ofArguments arguments = .request r → r.command = .compile job →
        job.fromHexListing = false → job.showListing = true →
        (run bound time arguments files stdin).ending = .exit 0 →
          ∃ source rows output more, ShowsOutput job files
            (run bound time arguments files stdin) source rows output more := by
  refine ⟨fun before source a p => Assembly.listing_of_assemble, ?_⟩
  intro bound time arguments files stdin r job hr hcommand hform hlisting hdone
  rw [run, hr] at hdone ⊢
  exact r.showsOutput hcommand hform hlisting hdone

/-- A label, a blank line and a statement; the compilation has a log file. -/
theorem listing_is_program_loop :
    let source := "go: // start\n \njmp go".toList
    let files : FileSystem :=
      { here := [], files := [(["p".toList], Utf8.encode source)], dirs := [] }
    let job : Compilation :=
      { input := Path.ofText "p".toList, output := some (Path.ofText "q".toList),
        fromHexListing := false, showListing := true, toBinary := false }
    let o := run 0 "" ["--log-file".toList, "l".toList, "compile".toList, "p".toList,
      "--listing".toList, "-o".toList, "q".toList] files (.bytes [])
    (∃ rows, (Assembler.assemble {} (.text source)).1.listing.toList.splitOn '\n' =
        titles ++ rows ∧ IsListing 0 (Text.lines source) [0xc000] rows) ∧
      o.ending = .exit 0 ∧ ∃ source rows output more,
        ShowsOutput job files o source rows output more := by
  intro source files job o
  have hzero : o.ending = .exit 0 := by rfl
  refine ⟨?_, hzero, ?_⟩
  · obtain ⟨t, rows, hdecode, hrows, hlisting⟩ :=
      listing_is_program.1 {} (.text source) _ ⟨[0xc000], [("go".toList, 0)]⟩ (by rfl)
    cases hdecode
    exact ⟨rows, hrows, hlisting⟩
  · exact listing_is_program.2 0 "" _ files (.bytes [])
      ⟨0, false, some (Path.ofText "l".toList), .compile job⟩ job rfl rfl rfl rfl hzero

end IttyBitty.CommandLine
