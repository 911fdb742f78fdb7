import ModuleInstall.Install.Installer
import ModuleInstall.Proofs.Actions

/-! # One module -/

namespace ModuleInstall.Installer

open ModuleInstall.Action

variable {i : Installer} {source dest : Path} {artifact : Artifact} {s s' : Session}
  {e : InstallError}

/-- The record of a copy that has begun. -/
def copying (source dest : Path) : Event :=
  .printed (.detail ("install " ++ source.display ++ " -> " ++ dest.display))

theorem run_copyModule (i : Installer) (source : Path) (s : Session) :
    i.copyModule source s =
      match source.fileName? with
      | none => .error (.file .place source .noFileName) s
      | some n =>
        match s.files.read i.here source with
        | .error cause => .error (.file .read source cause) s
        | .ok content =>
          match save i.room i.here (i.settings.tree.modulePath n) content
              (InstallError.file .write (i.settings.tree.modulePath n))
              (s.record [copying source (i.settings.tree.modulePath n)]) with
          | .error e s' => .error e s'
          | .ok _ s' => .ok (i.settings.tree.modulePath n) s' := by
  unfold copyModule
  cases hn : source.fileName? with
  | none => rfl
  | some n =>
    cases hr : s.files.read i.here source with
    | error cause => exact run_bind_of_error (query_eq_error_iff.2 ⟨cause, hr, rfl, rfl⟩)
    | ok content =>
      dsimp only
      rw [run_bind_of_ok (query_eq_ok_iff.2 ⟨hr, rfl⟩), run_bind_of_ok (run_print _ _)]
      cases hw : save i.room i.here (i.settings.tree.modulePath n) content
          (InstallError.file .write (i.settings.tree.modulePath n))
          (s.record [copying source (i.settings.tree.modulePath n)]) with
      | error e s' => exact run_bind_of_error hw
      | ok _ s' => exact run_bind_of_ok hw

section Copy

variable {n : Name} {content : Bytes} {cause : SystemError} {files : FileSystem}
  (hn : source.fileName? = some n) (hr : s.files.read i.here source = .ok content)
include hn hr

theorem copyModule_of_write_error
    (hw : s.files.write i.here (i.settings.tree.modulePath n) content = .error cause) :
    i.copyModule source s = .error (.file .write (i.settings.tree.modulePath n) cause)
      (s.record [copying source (i.settings.tree.modulePath n)]) := by
  have hsave : save i.room i.here (i.settings.tree.modulePath n) content
      (InstallError.file .write (i.settings.tree.modulePath n))
      (s.record [copying source (i.settings.tree.modulePath n)]) = _ :=
    save_eq_error_iff.2 (Or.inl ⟨cause, hw, rfl, rfl⟩)
  rw [run_copyModule, hn]
  simp only [hr, hsave]

theorem copyModule_of_write
    (ht : s.files.taken i.room i.here (i.settings.tree.modulePath n) content = content)
    (hw : s.files.write i.here (i.settings.tree.modulePath n) content = .ok files) :
    i.copyModule source s = .ok (i.settings.tree.modulePath n)
      { s.record [copying source (i.settings.tree.modulePath n)] with files } := by
  have hsave : save i.room i.here (i.settings.tree.modulePath n) content
      (InstallError.file .write (i.settings.tree.modulePath n))
      (s.record [copying source (i.settings.tree.modulePath n)]) = _ :=
    save_eq_ok_iff.2 ⟨ht, files, hw, rfl⟩
  rw [run_copyModule, hn]
  simp only [hr, hsave]

end Copy

theorem copyModule_ok_iff :
    i.copyModule source s = .ok dest s' ↔
      ∃ n content files, source.fileName? = some n ∧ dest = i.settings.tree.modulePath n ∧
        s.files.read i.here source = .ok content ∧
        s.files.taken i.room i.here dest content = content ∧
        s.files.write i.here dest content = .ok files ∧
        s' = { s.record [copying source dest] with files } := by
  constructor
  · intro h
    rw [run_copyModule] at h
    split at h
    · cases h
    rename_i n hn
    split at h
    · cases h
    rename_i content hr
    split at h
    · cases h
    rename_i s₁ hsave
    obtain ⟨ht, files, hw, rfl⟩ := save_eq_ok_iff.1 hsave
    cases h
    exact ⟨n, content, files, hn, rfl, hr, ht, hw, rfl⟩
  · rintro ⟨n, content, files, hn, rfl, hr, ht, hw, rfl⟩
    exact copyModule_of_write hn hr ht hw

theorem copyModule_ok (h : i.copyModule source s = .ok dest s') :
    ∃ n content, source.fileName? = some n ∧ dest = i.settings.tree.modulePath n ∧
      s.files.read i.here source = .ok content ∧
      s.files.write i.here dest content = .ok s'.files := by
  obtain ⟨n, content, files, hn, hdest, hr, -, hw, rfl⟩ := copyModule_ok_iff.1 h
  exact ⟨n, content, hn, hdest, hr, hw⟩

theorem copyModule_error (h : i.copyModule source s = .error e s') :
    s'.files = s.files ∨
      ∃ n content, source.fileName? = some n ∧ s.files.read i.here source = .ok content ∧
        s.files.FallsShort i.room i.here (i.settings.tree.modulePath n) content s'.files ∧
        e = .file .write (i.settings.tree.modulePath n) (.code .noSpace) := by
  rw [run_copyModule] at h
  split at h
  · cases h
    exact Or.inl rfl
  rename_i n hn
  split at h
  · cases h
    exact Or.inl rfl
  rename_i content hr
  split at h
  · rename_i hsave
    cases h
    rcases save_eq_error_iff.1 hsave with ⟨cause, -, -, rfl⟩ | ⟨files, hshort, rfl, rfl⟩
    · exact Or.inl rfl
    · exact Or.inr ⟨n, content, hn, hr, hshort, rfl⟩
  · cases h

theorem after_copyModule (i : Installer) (source : Path) (s : Session) :
    after (i.copyModule source s) = s ∨
      ∃ n content, source.fileName? = some n ∧ s.files.read i.here source = .ok content ∧
        (after (i.copyModule source s) = s.record [copying source (i.settings.tree.modulePath n)] ∨
          ∃ kept files, kept <+: content ∧
            s.files.write i.here (i.settings.tree.modulePath n) kept = .ok files ∧
            after (i.copyModule source s) =
              { s.record [copying source (i.settings.tree.modulePath n)] with files }) := by
  rw [run_copyModule]
  cases hn : source.fileName? with
  | none => exact Or.inl rfl
  | some n =>
    cases hr : s.files.read i.here source with
    | error cause => exact Or.inl rfl
    | ok content =>
      have hsave := after_save i.room i.here (i.settings.tree.modulePath n) content
        (InstallError.file .write (i.settings.tree.modulePath n))
        (s.record [copying source (i.settings.tree.modulePath n)])
      refine Or.inr ⟨n, content, rfl, rfl, ?_⟩
      dsimp only
      cases hw : save i.room i.here (i.settings.tree.modulePath n) content
          (InstallError.file .write (i.settings.tree.modulePath n))
          (s.record [copying source (i.settings.tree.modulePath n)]) <;> rw [hw] at hsave <;>
        exact hsave

theorem files_after_copyModule (i : Installer) (source : Path) (s : Session) :
    (after (i.copyModule source s)).files = s.files ∨
      ∃ n content kept, source.fileName? = some n ∧ s.files.read i.here source = .ok content ∧
        kept <+: content ∧ s.files.write i.here (i.settings.tree.modulePath n) kept =
          .ok (after (i.copyModule source s)).files := by
  rcases i.after_copyModule source s with h | ⟨n, content, hn, hr, h | ⟨kept, files, hk, hw, h⟩⟩
  · exact Or.inl (by rw [h])
  · exact Or.inl (by rw [h]; rfl)
  · exact Or.inr ⟨n, content, kept, hn, hr, hk, by rw [h]; exact hw⟩

theorem run_moveArtifact (i : Installer) (artifact : Artifact) (s : Session) :
    i.moveArtifact artifact s =
      match i.copyModule artifact.path s with
      | .error e s₁ => .error e s₁
      | .ok dest s₁ =>
        match s₁.files.remove i.here artifact.path with
        | .error cause => .error (.file .remove artifact.path cause) s₁
        | .ok files => .ok dest { s₁ with files } := by
  unfold moveArtifact
  cases hc : i.copyModule artifact.path s with
  | error e s₁ => exact run_bind_of_error hc
  | ok dest s₁ =>
    rw [run_bind_of_ok hc]
    dsimp only
    cases hr : s₁.files.remove i.here artifact.path with
    | error cause => exact run_bind_of_error (change_eq_error_iff.2 ⟨cause, hr, rfl, rfl⟩)
    | ok files => exact run_bind_of_ok (change_eq_ok_iff.2 ⟨files, hr, rfl⟩)

theorem moveArtifact_ok (h : i.moveArtifact artifact s = .ok dest s') :
    ∃ s₁, i.copyModule artifact.path s = .ok dest s₁ ∧
      s₁.files.remove i.here artifact.path = .ok s'.files := by
  unfold moveArtifact at h
  obtain ⟨d, s₁, hc, h⟩ := bind_eq_ok_iff.1 h
  obtain ⟨_, s₂, hr, h⟩ := bind_eq_ok_iff.1 h
  obtain ⟨files, hf, rfl⟩ := change_eq_ok_iff.1 hr
  cases h
  exact ⟨s₁, hc, hf⟩

/-- The session in which a compiler leaves the installer. -/
def afterCompiling (i : Installer) (source : Path) (s : Session) : Session where
  files := (i.compiler s.files source).files
  events := s.events ++ .asked source :: (i.compiler s.files source).events

theorem run_compile (i : Installer) (source : Path) (s : Session) :
    i.compile source s =
      match (i.compiler s.files source).result with
      | .ok artifact => .ok artifact (i.afterCompiling source s)
      | .error e => .error (.compile e) (i.afterCompiling source s) := by
  unfold compile orFail Compiler.compile afterCompiling
  cases hr : (i.compiler s.files source).result <;> simp [hr]

theorem compile_ok (h : i.compile source s = .ok artifact s') :
    (i.compiler s.files source).result = .ok artifact ∧ s' = i.afterCompiling source s := by
  rw [run_compile] at h
  cases hr : (i.compiler s.files source).result with
  | error e => simp [hr] at h
  | ok a =>
    simp only [hr] at h
    cases h
    exact ⟨rfl, rfl⟩

theorem run_compileAndMove (i : Installer) (source : Path) (s : Session) :
    i.compileAndMove source s =
      match (i.compiler s.files source).result with
      | .error e => .error (.compile e) (i.afterCompiling source s)
      | .ok artifact =>
        match i.moveArtifact artifact (i.afterCompiling source s) with
        | .error e s' => .error e s'
        | .ok dest s' => .ok (artifact, dest) s' := by
  have hrun := run_compile i source s
  unfold compileAndMove
  cases hr : (i.compiler s.files source).result with
  | error e =>
    rw [hr] at hrun
    exact run_bind_of_error hrun
  | ok artifact =>
    rw [hr] at hrun
    rw [run_bind_of_ok hrun]
    dsimp only
    cases hm : i.moveArtifact artifact (i.afterCompiling source s) with
    | error e s' => exact run_bind_of_error hm
    | ok dest s' => exact run_bind_of_ok hm

theorem compileAndMove_ok (h : i.compileAndMove source s = .ok (artifact, dest) s') :
    (i.compiler s.files source).result = .ok artifact ∧
      i.moveArtifact artifact (i.afterCompiling source s) = .ok dest s' := by
  unfold compileAndMove at h
  obtain ⟨a, s₁, hc, h⟩ := bind_eq_ok_iff.1 h
  obtain ⟨d, s₂, hm, h⟩ := bind_eq_ok_iff.1 h
  cases h
  obtain ⟨hr, rfl⟩ := compile_ok hc
  exact ⟨hr, hm⟩

/-! ## How a file is handled -/

theorem handle_source (i : Installer) (path : Path) (s : Session) :
    i.handle path .source s =
      match i.compileAndMove path s with
      | .ok (artifact, dest) s' => .ok (some (.installed artifact dest)) s'
      | .error e s' => .ok (some (.failed e)) s' := by
  cases h : i.compileAndMove path s with
  | ok r s' =>
    obtain ⟨artifact, dest⟩ := r
    exact run_bind_of_ok (attempt_eq_ok_iff.2 (Or.inl ⟨_, rfl, h⟩))
  | error e s' => exact run_bind_of_ok (attempt_eq_ok_iff.2 (Or.inr ⟨_, rfl, h⟩))

theorem handle_precompiled (i : Installer) (path : Path) (s : Session) :
    i.handle path .precompiled s =
      match i.copyModule path s with
      | .ok dest s' => .ok (some (.copied dest)) s'
      | .error e s' => .error e s' := by
  cases h : i.copyModule path s with
  | ok dest s' => exact run_bind_of_ok h
  | error e s' => exact run_bind_of_error h

end ModuleInstall.Installer
