import IttyBitty.Proofs.CommandLine.Routes
import IttyBitty.Proofs.Files.Writing

/-!
# Work with a log file

Records of the work go to the log file, and nothing else does. So between two steps the files
are as the first has left them, but for a log file that has grown, and every path leads where
it led. What a step that comes through has done is said from the session before it.
-/

namespace IttyBitty.CommandLine

variable {s s' s'' : Session} {printed printed' : RawText}

/-- A file can be at the place of the log file, if there is one. -/
def Session.Anchored (s : Session) : Prop :=
  ∀ place, s.logFile = some place → s.files.Reachable place

/-- From the first session to the second a text has been printed, and no file has changed but
that the log file may have grown. -/
structure Session.Prints (s s' : Session) (printed : RawText) : Prop where
  logFile : s'.logFile = s.logFile
  files : s.files.Grows s.logFile s'.files
  stdout : s'.stdout = s.stdout ++ printed

namespace Session.Prints

protected theorem refl (s : Session) : s.Prints s "" :=
  ⟨rfl, .refl _ _, (List.append_nil _).symm⟩

protected theorem trans (h : s.Prints s' printed) (h' : s'.Prints s'' printed') :
    s.Prints s'' (printed ++ printed') := by
  refine ⟨h'.logFile.trans h.logFile, h.files.trans ?_, ?_⟩
  · rw [← h.logFile]
    exact h'.files
  · rw [h'.stdout, h.stdout, List.append_assoc]

theorem anchored (h : s.Prints s' printed) (hs : s.Anchored) : s'.Anchored := by
  intro place hplace
  rw [h.logFile] at hplace
  exact h.files.reachable (hs place hplace)

end Session.Prints

/-- A file that is written leaves the place of the log file as it was. -/
theorem Session.Anchored.put {place : List Text} (hs : s.Anchored)
    (hplace : s.files.Reachable place) (bytes : List UInt8) :
    Session.Anchored { s with files := s.files.put place bytes } := by
  intro log hlog x hx hlt
  rw [FileSystem.isDir_put hplace]
  exact hs log hlog x hx hlt

namespace Work

variable {α β : Type} {a : α} {u : Unit}

/-- The work comes through: in the first session it has the given result and leaves the second
session. -/
def Through (w : Work α) (s : Session) (a : α) (s' : Session) : Prop :=
  (w.run.run s).1 = .ok a ∧ (w.run.run s).2 = s'

/-! ## Single steps -/

theorem through_pure_iff {a' : α} : Through (pure a') s a s' ↔ a' = a ∧ s = s' := by
  constructor
  · exact fun h => ⟨Except.ok.inj h.1, h.2⟩
  · rintro ⟨rfl, rfl⟩
    exact ⟨rfl, rfl⟩

theorem not_through_throw {failure : Failure} : ¬ Through (throw failure) s a s' :=
  fun h => nomatch h.1

theorem through_ofExcept_iff {ε : Type} {cause : ε → Failure} {result : Except ε α} :
    Through (ofExcept cause result) s a s' ↔ result = .ok a ∧ s = s' := by
  cases result with
  | ok a' => exact through_pure_iff.trans (by simp)
  | error e => exact iff_of_false not_through_throw nofun

theorem through_readFile_iff {path : Path} {bytes : List UInt8} :
    Through (readFile path) s bytes s' ↔ s.files.read path = .ok bytes ∧ s = s' := by
  rw [Through, readFile, get_bind_run]
  cases s.files.read path with
  | ok bytes' => exact through_pure_iff.trans (by simp)
  | error error => exact iff_of_false not_through_throw fun h => by cases h.1

theorem through_writeFile_iff {path : Path} {bytes : List UInt8} :
    Through (writeFile path bytes) s u s' ↔ ∃ place, s.files.locate path = .ok place ∧
      { s with files := s.files.put place bytes } = s' := by
  rw [Through, writeFile, get_bind_run, FileSystem.write]
  cases s.files.locate path with
  | ok place =>
      constructor
      · exact fun h => ⟨place, rfl, h.2⟩
      · rintro ⟨place', hplace, h⟩
        cases hplace
        exact ⟨rfl, h⟩
  | error error =>
      refine iff_of_false not_through_throw ?_
      rintro ⟨place, hplace, -⟩
      cases hplace

/-- Records go to the log file alone. -/
theorem Through.prints_note (hs : s.Anchored) {level : Level} {reporter : Reporter}
    {messages : List String} (h : Through (note level reporter messages) s u s') :
    s.Prints s' "" := by
  obtain ⟨time, logFile, files, stdout, log⟩ := s
  obtain ⟨-, rfl⟩ := h
  refine ⟨rfl, ?_, (List.append_nil _).symm⟩
  cases logFile with
  | none => exact .refl none files
  | some place => exact FileSystem.grows_append (hs place rfl) _

theorem Through.prints_print {text : RawText} (h : Through (print text) s u s') :
    s.Prints s' text := by
  obtain ⟨-, rfl⟩ := h
  exact ⟨rfl, .refl _ _, rfl⟩

/-! ## One after another -/

/-- **Parts come through** one after another. -/
theorem through_bind_iff {w : Work α} {k : α → Work β} {b : β} :
    Through (w >>= k) s b s'' ↔ ∃ a s', Through w s a s' ∧ Through (k a) s' b s'' := by
  rw [Through, bind_run]
  cases hresult : (w.run.run s).1 with
  | ok a =>
      constructor
      · exact fun h => ⟨a, _, ⟨hresult, rfl⟩, h⟩
      · rintro ⟨a', s', ⟨ha, rfl⟩, h⟩
        rw [hresult] at ha
        cases ha
        exact h
  | error failure =>
      refine iff_of_false (fun h => nomatch h.1) ?_
      rintro ⟨a', s', ⟨ha, -⟩, -⟩
      rw [hresult] at ha
      cases ha

/-- One of the branches has come through. -/
theorem Through.of_ite {c : Prop} [Decidable c] {w w' : Work α}
    (h : Through (if c then w else w') s a s') : Through w s a s' ∨ Through w' s a s' := by
  split at h
  · exact .inl h
  · exact .inr h

/-- An assembly that comes through has made a program. -/
theorem Through.assemble (hs : s.Anchored) {source : List UInt8} {a : Assembly.Assembler}
    (h : Through (assemble source) s a s') :
    ∃ p, Assembly.Assembler.assemble {} (.bytes source) = (a, .ok p) ∧ s.Prints s' "" := by
  rcases hassemble : Assembly.Assembler.assemble {} (.bytes source) with ⟨a', result⟩
  have hrest {s : Session} (hs : s.Anchored) {messages : Assembly.Program → List String}
      (h : Through (do
        let program ← ofExcept Failure.assembly result
        note .debug .assembler (messages program)
        return a') s a s') :
      ∃ p, (a', result) = (a, .ok p) ∧ s.Prints s' "" := by
    obtain ⟨p, mid, hresult, h⟩ := through_bind_iff.mp h
    obtain ⟨rfl, rfl⟩ := through_ofExcept_iff.mp hresult
    obtain ⟨_, last, hnote, h⟩ := through_bind_iff.mp h
    obtain ⟨rfl, rfl⟩ := through_pure_iff.mp h
    exact ⟨p, rfl, hnote.prints_note hs⟩
  unfold Work.assemble at h
  simp only [hassemble] at h
  rcases h.of_ite with h | h
  · obtain ⟨_, mid, hnote, h⟩ := through_bind_iff.mp h
    have hprints := hnote.prints_note hs
    obtain ⟨p, hp, hprints'⟩ := hrest (hprints.anchored hs) h
    exact ⟨p, hp, hprints.trans hprints'⟩
  · exact hrest hs h

end Work

/-! ## Requests -/

/-- A session begins with the files as they are, but for a log file that is made. -/
theorem Request.grows_of_start {r : Request} {time : String} {files : FileSystem}
    (h : r.start time files = .ok s) :
    s.Anchored ∧ files.Grows s.logFile s.files ∧ s.stdout = "" := by
  rw [Request.start] at h
  cases hlog : r.logFile with
  | none =>
      rw [hlog] at h
      cases h
      refine ⟨?_, .refl none files, rfl⟩
      rintro place ⟨⟩
  | some path =>
      rw [hlog] at h
      cases hensure : files.ensure (files.collapse path) with
      | error error =>
          simp only [hensure] at h
          cases h
      | ok made =>
          simp only [hensure] at h
          cases h
          obtain ⟨place, files'⟩ := made
          obtain ⟨hplace, hgrows⟩ := FileSystem.grows_ensure hensure
          refine ⟨?_, hgrows, rfl⟩
          rintro _ ⟨⟩
          exact hgrows.reachable hplace

/-- A request that ends well has come through, and what its session has come to is left. -/
theorem Request.through_of_run {r : Request} {bound : Nat} {time : String} {files : FileSystem}
    {stdin : StandardInput} (hdone : (r.run bound time files stdin).ending = .exit 0) :
    ∃ start last, r.start time files = .ok start ∧
      Work.Through (r.work bound stdin) start () last ∧
      (r.run bound time files stdin).stdout = last.stdout ∧
      (r.run bound time files stdin).logFile = last.logFile ∧
      (r.run bound time files stdin).files = last.files := by
  rw [Request.run] at hdone ⊢
  cases hstart : r.start time files with
  | error error =>
      rw [hstart] at hdone
      cases hdone
  | ok start =>
      rw [hstart] at hdone
      dsimp only at hdone ⊢
      rcases hwork : (r.work bound stdin).run.run start with ⟨failure | u, last⟩
      · rw [hwork] at hdone
        exact absurd hdone failure.ending_ne_exit_zero
      · refine ⟨start, last, rfl, ?_, rfl, rfl, rfl⟩
        rw [Work.Through, hwork]
        exact ⟨rfl, rfl⟩

end IttyBitty.CommandLine
