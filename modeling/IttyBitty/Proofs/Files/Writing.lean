import IttyBitty.FileSystem
import Mathlib.Data.List.Infix

/-!
# Writing files

Writing a file changes the bytes at one place and nothing else: other files keep
theirs, no directory comes or goes, and every path that led somewhere leads there
still. So a file that has been written is read back, and any other is read as
before.
-/

namespace IttyBitty.FileSystem

variable {fs : FileSystem} {place : List Text} {bytes : List UInt8}

/-! ## Files -/

private theorem lookup_filter_ne {files : List (List Text × List UInt8)}
    {place other : List Text} (h : other ≠ place) :
    (files.filter fun f => f.1 != place).lookup other = files.lookup other := by
  induction files with
  | nil => rfl
  | cons f files ih =>
      obtain ⟨name, bytes⟩ := f
      by_cases hname : name = place
      · have hother : (other == name) = false := by
          rw [beq_eq_false_iff_ne, hname]
          exact h
        rw [List.filter_cons_of_neg (by simp [hname]), ih, List.lookup_cons, hother]
      · rw [List.filter_cons_of_pos (by simp [hname]), List.lookup_cons, List.lookup_cons, ih]

/-- **A file that is put somewhere is there**, and the others are as they were. -/
theorem file?_put (fs : FileSystem) (place other : List Text) (bytes : List UInt8) :
    (fs.put place bytes).file? other = if other = place then some bytes else fs.file? other := by
  rw [file?, put]
  by_cases h : other = place
  · rw [if_pos h, h, List.lookup_cons_self]
  · rw [if_neg h, List.lookup_cons, beq_eq_false_iff_ne.mpr h]
    exact lookup_filter_ne h

/-! ## Directories -/

theorem isDir_iff {x : List Text} :
    fs.isDir x = true ↔
      x <+: fs.here ∨ (∃ dir ∈ fs.dirs, x <+: dir) ∨
        ∃ f ∈ fs.files, x <+: f.1 ∧ x.length < f.1.length := by
  simp [isDir, or_assoc]

/-- What is on the way to a directory is one. -/
theorem isDir_of_prefix {x y : List Text} (h : fs.isDir y = true) (hxy : x <+: y) :
    fs.isDir x = true := by
  rw [isDir_iff] at h ⊢
  rcases h with h | ⟨dir, hdir, h⟩ | ⟨f, hf, h, hlt⟩
  · exact .inl (hxy.trans h)
  · exact .inr (.inl ⟨dir, hdir, hxy.trans h⟩)
  · exact .inr (.inr ⟨f, hf, hxy.trans h, lt_of_le_of_lt hxy.length_le hlt⟩)

/-- All that is on the way to a place is a directory. -/
def Reachable (fs : FileSystem) (place : List Text) : Prop :=
  ∀ x, x <+: place → x.length < place.length → fs.isDir x = true

/-- A file that is put where one can be makes no directory. -/
theorem isDir_put (h : fs.Reachable place) (bytes : List UInt8) (x : List Text) :
    (fs.put place bytes).isDir x = fs.isDir x := by
  rw [Bool.eq_iff_iff, isDir_iff]
  constructor
  · rintro (hhere | hdir | ⟨f, hf, hx, hlt⟩)
    · exact isDir_iff.mpr (.inl hhere)
    · exact isDir_iff.mpr (.inr (.inl hdir))
    · rcases List.mem_cons.mp hf with rfl | hf
      · -- what the new file makes a directory has been one before
        exact h x hx hlt
      · exact isDir_iff.mpr (.inr (.inr ⟨f, List.mem_of_mem_filter hf, hx, hlt⟩))
  · intro hx
    rcases isDir_iff.mp hx with hhere | hdir | ⟨f, hf, hx, hlt⟩
    · exact .inl hhere
    · exact .inr (.inl hdir)
    · -- the new file stands in for the one that was at its place
      by_cases hplace : f.1 = place
      · exact .inr (.inr ⟨(place, bytes), List.mem_cons_self .., hplace ▸ hx, hplace ▸ hlt⟩)
      · exact .inr (.inr ⟨f, List.mem_cons_of_mem _
          (List.mem_filter.mpr ⟨hf, bne_iff_ne.mpr hplace⟩), hx, hlt⟩)

/-! ## Following paths -/

theorem enter_eq_ok_iff {name : Text} {next : List Text} :
    fs.enter place name = .ok next ↔
      (name = Path.parent ∧ next = place.dropLast) ∨
      (name ≠ Path.parent ∧ isTooLong name = false ∧ fs.isDir (place ++ [name]) = true ∧
        next = place ++ [name]) := by
  rw [enter]
  by_cases hparent : name = Path.parent
  · rw [if_pos hparent]
    exact ⟨fun h => .inl ⟨hparent, (Except.ok.inj h).symm⟩, by
      rintro (⟨-, rfl⟩ | ⟨hne, -⟩)
      · rfl
      · exact absurd hparent hne⟩
  · by_cases hlong : isTooLong name = true
    · simp [hparent, hlong]
    · by_cases hdir : fs.isDir (place ++ [name]) = true
      · simp [hparent, hlong, hdir, eq_comm]
      · simp only [hparent, hlong, hdir, if_false, Bool.false_eq_true]
        split <;> simp

theorem follow_singleton_eq_ok_iff {name : Text} {target : List Text} :
    fs.follow place [name] = .ok target ↔
      name ≠ Path.parent ∧ isTooLong name = false ∧ fs.isDir (place ++ [name]) = false ∧
        target = place ++ [name] := by
  rw [follow]
  by_cases hparent : name = Path.parent
  · simp [hparent]
  · by_cases hlong : isTooLong name = true
    · simp [hparent, hlong]
    · by_cases hdir : fs.isDir (place ++ [name]) = true
      · simp [hparent, hlong, hdir]
      · simp [hparent, hlong, hdir, eq_comm]

theorem follow_cons_eq_ok_iff {name name' : Text} {rest : List Text} {target : List Text} :
    fs.follow place (name :: name' :: rest) = .ok target ↔
      ∃ next, fs.enter place name = .ok next ∧ fs.follow next (name' :: rest) = .ok target := by
  have hstep : fs.follow place (name :: name' :: rest)
      = (fs.enter place name).bind fun next => fs.follow next (name' :: rest) := rfl
  rw [hstep]
  cases henter : fs.enter place name with
  | error e => simp [Except.bind]
  | ok next => simp [Except.bind]

/-- A path leads only through directories. -/
theorem reachable_of_follow {names : List Text} {target : List Text}
    (hplace : fs.isDir place = true) (h : fs.follow place names = .ok target) :
    fs.Reachable target := by
  induction names generalizing place with
  | nil => cases h
  | cons name rest ih =>
      cases rest with
      | nil =>
          -- the last name is not entered: all before it is on the way to `place`
          obtain ⟨-, -, -, rfl⟩ := follow_singleton_eq_ok_iff.mp h
          intro x hx hlt
          rw [List.length_append, List.length_singleton] at hlt
          exact isDir_of_prefix hplace
            (List.prefix_of_prefix_length_le hx (List.prefix_append ..) (by omega))
      | cons name' rest =>
          obtain ⟨next, henter, hfollow⟩ := follow_cons_eq_ok_iff.mp h
          refine ih ?_ hfollow
          rcases enter_eq_ok_iff.mp henter with ⟨-, rfl⟩ | ⟨-, -, hdir, rfl⟩
          · exact isDir_of_prefix hplace (List.dropLast_prefix place)
          · exact hdir

theorem reachable_of_locate {p : Path} {target : List Text} (h : fs.locate p = .ok target) :
    fs.Reachable target := by
  have hhere : fs.isDir fs.here = true := isDir_iff.mpr (.inl (List.prefix_refl _))
  rw [locate] at h
  split at h
  · cases h
  · split at h
    · cases h
    · refine reachable_of_follow ?_ h
      rw [start]
      split
      · exact hhere
      · exact isDir_of_prefix hhere (List.nil_prefix)

/-- Where names lead depends on the directories alone. -/
theorem follow_of_isDir {fs' : FileSystem} (hdir : ∀ x, fs'.isDir x = fs.isDir x)
    {origin names target : List Text} (h : fs.follow origin names = .ok target) :
    fs'.follow origin names = .ok target := by
  induction names generalizing origin with
  | nil => cases h
  | cons name rest ih =>
      cases rest with
      | nil =>
          rw [follow_singleton_eq_ok_iff] at h ⊢
          rwa [hdir]
      | cons name' rest =>
          rw [follow_cons_eq_ok_iff] at h ⊢
          obtain ⟨next, henter, hfollow⟩ := h
          refine ⟨next, ?_, ih hfollow⟩
          rw [enter_eq_ok_iff] at henter ⊢
          rwa [hdir]

/-- Where a path leads depends on the directories and the one it starts in. -/
theorem locate_of_isDir {fs' : FileSystem} (hdir : ∀ x, fs'.isDir x = fs.isDir x)
    (hhere : fs'.here = fs.here) {p : Path} {target : List Text}
    (h : fs.locate p = .ok target) : fs'.locate p = .ok target := by
  have hstart : fs'.start p = fs.start p := by rw [start, start, hhere]
  rw [locate] at h ⊢
  split at h
  · cases h
  · rename_i hnull
    rw [if_neg hnull]
    split at h
    · cases h
    · rename_i hlong
      rw [if_neg hlong, hstart]
      exact follow_of_isDir hdir h

/-- What comes of a path, be it a place or an error, depends on the directory it starts in and on
where there are directories and files. -/
theorem locate_congr {fs' : FileSystem} (hhere : fs'.here = fs.here)
    (hdir : ∀ x, fs'.isDir x = fs.isDir x)
    (hfile : ∀ x, (fs'.file? x).isSome = (fs.file? x).isSome) (p : Path) :
    fs'.locate p = fs.locate p := by
  have henter (place : List Text) (name : Text) : fs'.enter place name = fs.enter place name := by
    simp only [enter, hdir, hfile]
  have hfollow (place names : List Text) : fs'.follow place names = fs.follow place names := by
    induction names generalizing place with
    | nil => rfl
    | cons name rest ih =>
        cases rest with
        | nil => rw [follow, follow, hdir]
        | cons name' rest =>
            show (fs'.enter place name).bind (fs'.follow · (name' :: rest)) =
              (fs.enter place name).bind (fs.follow · (name' :: rest))
            rw [henter, funext ih]
  rw [locate, locate, hfollow, start, start, hhere]

/-- A path that leads to a place leads there after a file has been put somewhere. -/
theorem locate_put (hplace : fs.Reachable place) {p : Path} {target : List Text}
    (h : fs.locate p = .ok target) : (fs.put place bytes).locate p = .ok target :=
  locate_of_isDir (isDir_put hplace bytes) rfl h

/-! ## Reading and writing -/

theorem read_eq_ok_iff {p : Path} :
    fs.read p = .ok bytes ↔ ∃ place, fs.locate p = .ok place ∧ fs.file? place = some bytes := by
  rw [read]
  cases hlocate : fs.locate p with
  | error e => simp [bind, Except.bind]
  | ok place =>
      cases hfile : fs.file? place <;>
        simp [bind, Except.bind, pure, Except.pure, throw, throwThe, MonadExceptOf.throw, hfile]

/-- **A file that has been written is read back.** -/
theorem read_put_self {p : Path} (h : fs.locate p = .ok place) (bytes : List UInt8) :
    (fs.put place bytes).read p = .ok bytes := by
  rw [read_eq_ok_iff]
  refine ⟨place, locate_put (reachable_of_locate h) h, ?_⟩
  rw [file?_put, if_pos rfl]

/-- **Any other file is read as before.** -/
theorem read_put_of_ne {p q : Path} {old : List UInt8} (hread : fs.read p = .ok old)
    (hwrite : fs.locate q = .ok place) (hne : fs.locate p ≠ .ok place) (bytes : List UInt8) :
    (fs.put place bytes).read p = .ok old := by
  obtain ⟨other, hlocate, hfile⟩ := read_eq_ok_iff.mp hread
  refine read_eq_ok_iff.mpr ⟨other, locate_put (reachable_of_locate hwrite) hlocate, ?_⟩
  rw [file?_put, if_neg, hfile]
  rintro rfl
  exact hne hlocate

/-! ## A file that grows -/

/-- Nothing has happened from the first file system to the second but that a file at the place
of the log, if there is one, has been made or has got more bytes. -/
structure Grows (log : Option (List Text)) (fs fs' : FileSystem) : Prop where
  here : fs'.here = fs.here
  isDir : ∀ x, fs'.isDir x = fs.isDir x
  others : ∀ place, log ≠ some place → fs'.file? place = fs.file? place
  kept : ∀ place bytes, fs.file? place = some bytes →
    ∃ more, fs'.file? place = some (bytes ++ more)

variable {log : Option (List Text)} {fs' fs'' : FileSystem}

protected theorem Grows.refl (log : Option (List Text)) (fs : FileSystem) : Grows log fs fs :=
  ⟨rfl, fun _ => rfl, fun _ _ => rfl, fun _ bytes h => ⟨[], by rw [h, List.append_nil]⟩⟩

protected theorem Grows.trans (h : Grows log fs fs') (h' : Grows log fs' fs'') :
    Grows log fs fs'' := by
  refine ⟨h'.here.trans h.here, fun x => (h'.isDir x).trans (h.isDir x), ?_, ?_⟩
  · intro place hplace
    rw [h'.others place hplace, h.others place hplace]
  · intro place bytes hbytes
    obtain ⟨more, hmore⟩ := h.kept place bytes hbytes
    obtain ⟨more', hmore'⟩ := h'.kept place _ hmore
    exact ⟨more ++ more', by rw [hmore', List.append_assoc]⟩

theorem Grows.reachable (h : Grows log fs fs') {place : List Text} (hplace : fs.Reachable place) :
    fs'.Reachable place := by
  intro x hx hlt
  rw [h.isDir]
  exact hplace x hx hlt

/-- Every path leads where it led before. -/
theorem Grows.locate_eq_ok_iff (h : Grows log fs fs') {p : Path} :
    fs'.locate p = .ok place ↔ fs.locate p = .ok place :=
  ⟨locate_of_isDir (fun x => (h.isDir x).symm) h.here.symm, locate_of_isDir h.isDir h.here⟩

/-- If the log is there, the same comes of every path. -/
theorem Grows.locate_eq (h : Grows log fs fs')
    (hlog : ∀ place, log = some place → (fs.file? place).isSome) (p : Path) :
    fs'.locate p = fs.locate p := by
  refine locate_congr h.here h.isDir (fun place => ?_) p
  by_cases hplace : log = some place
  · obtain ⟨bytes, hbytes⟩ := Option.isSome_iff_exists.mp (hlog place hplace)
    obtain ⟨more, hmore⟩ := h.kept place bytes hbytes
    rw [hmore, hbytes]
    rfl
  · rw [h.others place hplace]

/-- **Any file but the log** is read as before. -/
theorem Grows.read_eq_ok_iff (h : Grows log fs fs') {p : Path}
    (hlog : ∀ place, fs.locate p = .ok place → log ≠ some place) :
    fs'.read p = .ok bytes ↔ fs.read p = .ok bytes := by
  rw [FileSystem.read_eq_ok_iff, FileSystem.read_eq_ok_iff]
  refine exists_congr fun place => ?_
  rw [h.locate_eq_ok_iff]
  exact and_congr_right fun hlocate => by rw [h.others place (hlog place hlocate)]

/-- Bytes that are put behind those at the place of the log. -/
theorem grows_append (hplace : fs.Reachable place) (bytes : List UInt8) :
    Grows (some place) fs (fs.append place bytes) := by
  refine ⟨rfl, isDir_put hplace _, fun other hother => ?_, fun other old hold => ?_⟩
  · rw [append, file?_put, if_neg]
    rintro rfl
    exact hother rfl
  · rw [append, file?_put]
    split
    · rename_i hsame
      obtain rfl := hsame
      exact ⟨bytes, by rw [hold, Option.getD_some]⟩
    · exact ⟨[], by rw [hold, List.append_nil]⟩

/-- The file of the log is made if it is not there. -/
theorem grows_ensure {p : Path} (h : fs.ensure p = .ok (place, fs')) :
    fs.Reachable place ∧ Grows (some place) fs fs' := by
  rw [ensure] at h
  cases hlocate : fs.locate p with
  | error error =>
      rw [hlocate] at h
      cases h
  | ok target =>
      rw [hlocate] at h
      cases h
      have hplace := reachable_of_locate hlocate
      refine ⟨hplace, ?_⟩
      split
      · exact .refl _ fs
      · rename_i hmissing
        have hgrows := grows_append hplace []
        have hnone : fs.file? place = none := by
          rwa [← Option.not_isSome_iff_eq_none]
        rwa [append, hnone] at hgrows

theorem isSome_of_ensure {p : Path} (h : fs.ensure p = .ok (place, fs')) :
    (fs'.file? place).isSome := by
  rw [ensure] at h
  cases hlocate : fs.locate p with
  | error error =>
      rw [hlocate] at h
      cases h
  | ok target =>
      rw [hlocate] at h
      cases h
      split
      · assumption
      · rw [file?_put, if_pos rfl]
        rfl

end IttyBitty.FileSystem
