import ModuleInstall.Proofs.Calling
import ModuleInstall.Proofs.Ending
import ModuleInstall.Proofs.Levels
import ModuleInstall.Proofs.Room

/-! # Copying a module -/

namespace ModuleInstall

open ModuleInstall.Action

namespace FileSystem

variable {fs fs' : FileSystem} {here : Location} {source dest p : Path} {content : Bytes}

/-- The second file system has a copy of the source at the destination, and differs from the first
at most in the file that the destination stands for. -/
structure Copied (here : Location) (source dest : Path) (fs fs' : FileSystem) : Prop where
  content : ∃ content, fs.read here source = .ok content ∧ fs'.read here dest = .ok content ∧
    fs'.read here source = .ok content
  others : ∃ place, fs.walk .followed here dest = .ok place ∧
    fs'.walk .followed here dest = .ok place ∧
    ∀ l, l ≠ place.location → fs'.node? l = fs.node? l

theorem read_after_write {before : Bytes} (hw : fs.write here dest content = .ok fs')
    (hr : fs.read here p = .ok before) :
    fs'.read here p = .ok before ∨ fs'.read here p = .ok content := by
  obtain ⟨executable, hst⟩ := read_eq_ok_iff.1 hr
  rcases stat_of_write hw hst with hst | ⟨-, -, x, -, hst⟩
  · exact Or.inl (read_eq_ok_iff.2 ⟨executable, hst⟩)
  · exact Or.inr (read_eq_ok_iff.2 ⟨x, hst⟩)

theorem copied_of_write (hr : fs.read here source = .ok content)
    (hw : fs.write here dest content = .ok fs') : Copied here source dest fs fs' where
  content := ⟨content, hr, read_of_write hw, (read_after_write hw hr).elim id id⟩
  others := by
    obtain ⟨dir, n, executable, hwalk, -, -, -, hothers⟩ := write_spec hw
    exact ⟨_, hwalk, walk_of_write hw hwalk, hothers⟩

end FileSystem

namespace Installer

variable {i : Installer} {source dest p : Path} {s s' : Session} {e : InstallError}

theorem copied_of_copyModule (h : i.copyModule source s = .ok dest s') :
    (∃ n, source.fileName? = some n ∧ dest = i.settings.tree.modulePath n) ∧
      FileSystem.Copied i.here source dest s.files s'.files := by
  obtain ⟨n, content, hn, hdest, hr, hw⟩ := copyModule_ok h
  exact ⟨⟨n, hn, hdest⟩, FileSystem.copied_of_write hr hw⟩

theorem files_of_copyModule_error (hroom : i.RoomFor source s.files)
    (h : i.copyModule source s = .error e s') : s'.files = s.files := by
  rcases copyModule_error h with hsame | ⟨n, content, hn, hr, hshort, -⟩
  · exact hsame
  · exact absurd (hroom n content hn hr) hshort.1

/-- Where space does not run out, a precompiled module is copied byte for byte under its own name,
and nothing else changes, or the copy fails for the first of its steps that does and nothing
changes. No compiler is asked, and it makes no difference which one there is. -/
theorem installFile_copies_or_fails (hk : i.settings.kindOf p = .precompiled) (s : Session) :
    (i.RoomFor p s.files → (∃ n s', p.fileName? = some n ∧
        i.installFile p s = .ok (some (.copied (i.settings.tree.modulePath n))) s' ∧
        FileSystem.Copied i.here p (i.settings.tree.modulePath n) s.files s'.files) ∨
      ∃ e s', i.installFile p s = .error e s' ∧ i.CopyFails p s.files e ∧ s'.files = s.files) ∧
    calls (after (i.installFile p s)).events = calls s.events ∧
    ∀ compiler, ({ i with compiler } : Installer).installFile p s = i.installFile p s := by
  have hrun := fun j : Installer => j.handle_precompiled p s
  refine ⟨fun hroom => ?_, ?_, fun compiler => ?_⟩
  · rw [installFile, hk, hrun]
    cases hc : i.copyModule p s with
    | ok dest s' =>
      obtain ⟨⟨n, hn, rfl⟩, hcopied⟩ := copied_of_copyModule hc
      exact Or.inl ⟨n, s', hn, rfl, hcopied⟩
    | error e s' =>
      exact Or.inr ⟨e, s', rfl, copyFails_iff.1 ⟨s', hc⟩,
        files_of_copyModule_error hroom hc⟩
  · have hquiet := i.quiet_copyModule p s
    rw [installFile, hk, hrun]
    cases hc : i.copyModule p s <;> rw [hc] at hquiet <;> exact hquiet
  · rw [installFile, installFile, hk, hrun, hrun]
    rfl

end Installer

/-- A module, and a tree in which its place is a link to it. -/
def Sample.aliased : Session :=
  start [.file (path "w/B.jil") [0x62],
    .link (path "home/jil/lib/std/B.jil") (Utf8.encode "../../../../w/B.jil")]

theorem Installer.installFile_copies_or_fails_aliased :
    let module := Sample.path "w/B.jil"
    let dest := Sample.path "home/jil/lib/std/B.jil"
    (∃ s', Sample.installer.installFile module Sample.aliased = .ok (some (.copied dest)) s' ∧
        FileSystem.Copied [] module dest Sample.aliased.files s'.files) ∧
      ∃ e s', Sample.installer.installFile module Sample.crowded = .error e s' ∧
        Sample.installer.CopyFails module Sample.crowded.files e ∧
        s'.files = Sample.crowded.files := by
  intro module dest
  have hk : Sample.installer.settings.kindOf module = .precompiled := by decide
  have hn : module.fileName? = some (Utf8.encode "B.jil") := by decide
  have hd : Sample.installer.settings.tree.modulePath (Utf8.encode "B.jil") = dest := by decide
  have hroom := Sample.installer.roomFor_of_ample rfl module
  have hends : (value? (Sample.installer.installFile module Sample.aliased)).isSome = true ∧
      (value? (Sample.installer.installFile module Sample.crowded)).isSome = false := by
    decide +kernel
  refine ⟨?_, ?_⟩
  · rcases (installFile_copies_or_fails hk Sample.aliased).1 (hroom _) with ⟨n, s', hn', hrun, hcopied⟩ | h
    · obtain rfl := Option.some.inj (hn.symm.trans hn')
      rw [hd] at hrun hcopied
      exact ⟨s', hrun, hcopied⟩
    · obtain ⟨e, s', hrun, -⟩ := h
      simp [hrun, value?] at hends
  · rcases (installFile_copies_or_fails hk Sample.crowded).1 (hroom _) with ⟨n, s', -, hrun, -⟩ | h
    · simp [hrun, value?] at hends
    · exact h

end ModuleInstall
