import ModuleInstall.Proofs.Ending
import ModuleInstall.Proofs.Levels

/-! # An artifact that is not there -/

namespace ModuleInstall

open FileSystem ModuleInstall.Action

namespace Installer

variable {i : Installer} {source dir : Path} {artifact : Artifact} {cause : SystemError}
  {s s' s₀ t : Session} {fs : FileSystem} {total number : Nat} {paths : List Path}
  {entries : List (String × Outcome)} {rest : List (Path × Nat)}

/-- What goes wrong with an artifact that cannot be read. -/
def unreadable (artifact : Path) (cause : SystemError) : InstallError :=
  match artifact.fileName? with
  | none => .file .place artifact .noFileName
  | some _ => .file .read artifact cause

/-- The compiler reports an artifact for a source, and leaves nothing to read there. -/
structure ReportsMissing (i : Installer) (fs : FileSystem) (source : Path) (artifact : Artifact)
    (cause : SystemError) : Prop where
  reports : (i.compiler fs source).result = .ok artifact
  missing : (i.compiler fs source).files.read i.here artifact.path = .error cause

theorem moveArtifact_of_unreadable (h : s.files.read i.here artifact.path = .error cause) :
    i.moveArtifact artifact s = .error (unreadable artifact.path cause) s := by
  rw [run_moveArtifact, run_copyModule, unreadable]
  cases artifact.path.fileName? with
  | none => rfl
  | some n => simp only [h]

section Missing

variable (h : i.ReportsMissing s.files source artifact cause)
include h

theorem compileAndMove_of_missing :
    i.compileAndMove source s =
      .error (unreadable artifact.path cause) (i.afterCompiling source s) := by
  rw [run_compileAndMove, h.reports]
  dsimp only
  rw [moveArtifact_of_unreadable h.missing]

theorem buildModule_of_missing
    (hstands : i.settings.tree.Stands i.here (i.compiler s.files source).files) :
    ∃ s', i.buildModule source true s = .error (unreadable artifact.path cause) s' ∧
      s'.files = (i.compiler s.files source).files := by
  have hc := i.run_compile source (s.record [.printed (.stage "compile")])
  rw [show (s.record [.printed (.stage "compile")]).files = s.files from rfl, h.reports] at hc
  have hp : i.provision (i.afterCompiling source (s.record [.printed (.stage "compile")])) = _ :=
    provision_of_stands hstands
  unfold buildModule
  rw [run_bind_of_ok (run_print _ _), run_bind_of_ok hc, if_pos rfl, run_bind_of_ok hp,
    run_bind_of_ok (run_print _ _), run_bind_of_error (moveArtifact_of_unreadable h.missing)]
  exact ⟨_, rfl, rfl⟩

theorem installFile_of_missing (hk : i.settings.kindOf source = .source) :
    i.installFile source s =
      .ok (some (.failed (unreadable artifact.path cause))) (i.afterCompiling source s) := by
  rw [installFile, hk, handle_source, compileAndMove_of_missing h]

theorem handleListed_of_missing (hk : i.settings.kindOf source = .source) (total number : Nat) :
    ∃ t, i.handleListed total source number s =
        .ok (some (listedName source, .failed (unreadable artifact.path cause))) t ∧
      t.files = (i.compiler s.files source).files := by
  have hsame := i.files_announcing total source number s
  have h' : i.ReportsMissing (i.announcing total source number s).files source artifact cause := by
    rwa [hsame]
  rw [run_handleListed, hk, handle_source, compileAndMove_of_missing h']
  exact ⟨_, rfl, by rw [files_showing, afterCompiling, hsame]⟩

end Missing

theorem entries_of_runs {report : Report} (hr : i.Runs dir s paths entries rest t)
    (h : i.installAll dir s = .ok report s') : ∃ more, report.entries = entries ++ more := by
  obtain ⟨s₁, hp, hl, hr⟩ := hr
  rw [run_installAll hp hl, handleAll_of_reaches hr] at h
  cases hm : i.handleAll paths.length rest t with
  | ok more t' =>
    rw [hm] at h
    cases h
    exact ⟨more, rfl⟩
  | error e t' =>
    rw [hm] at h
    cases h

/-- An artifact that cannot be read is not installed, whoever asks for it: a build ends with what
went wrong, and an installation records it and goes on. The files are those that the compiler
left. If the artifact is a pipe, the cause is `wouldBlock`, and nobody comes back from the read. -/
theorem missing_not_installed (h : i.ReportsMissing s.files source artifact cause) :
    (i.settings.tree.Stands i.here (i.compiler s.files source).files →
      ∃ s', i.buildModule source true s = .error (unreadable artifact.path cause) s' ∧
        s'.files = (i.compiler s.files source).files) ∧
    (i.settings.kindOf source = .source →
      (∃ s', i.installFile source s =
          .ok (some (.failed (unreadable artifact.path cause))) s' ∧
        s'.files = (i.compiler s.files source).files) ∧
      ∀ dir s₀ paths entries number rest, i.Runs dir s₀ paths entries ((source, number) :: rest) s →
        (∃ t, i.Runs dir s₀ paths
            (entries ++ [(listedName source, .failed (unreadable artifact.path cause))]) rest t ∧
          t.files = (i.compiler s.files source).files) ∧
        ∀ report s', i.installAll dir s₀ = .ok report s' →
          (listedName source, .failed (unreadable artifact.path cause)) ∈ report.entries) := by
  refine ⟨buildModule_of_missing h, fun hk => ⟨⟨_, installFile_of_missing h hk, rfl⟩, ?_⟩⟩
  intro dir s₀ paths entries number rest hr
  obtain ⟨t, hl, hfiles⟩ := handleListed_of_missing h hk paths.length number
  have hturn := runs_turn hr hl
  refine ⟨⟨t, hturn, hfiles⟩, fun report s' hall => ?_⟩
  obtain ⟨more, hmore⟩ := entries_of_runs hturn hall
  rw [hmore]
  simp

end Installer

/-- The installation with a compiler that reports an artifact and leaves the files as `leave`
does. -/
def Sample.reporting (artifact : Path) (leave : FileSystem → FileSystem) : Installer where
  settings
  compiler fs _ := { result := .ok { path := artifact }, files := leave fs }
  here := []

theorem Sample.names_plain : Sample.plain.files.names [Utf8.encode "w"] = [Utf8.encode "A.java"] := by
  decide +kernel

theorem Installer.missing_not_installed_plain :
    let artifact := Sample.path "w/A.class"
    let i := Sample.reporting artifact id
    let source := Sample.path "w/A.java"
    let e := InstallError.file .read artifact (.code .noEntry)
    (∃ s', i.buildModule source true Sample.plain = .error e s' ∧ s'.files = Sample.plain.files) ∧
      (∃ s', i.installFile source Sample.plain = .ok (some (.failed e)) s' ∧
        s'.files = Sample.plain.files) ∧
      ∃ report s', i.installAll (Sample.path "w") Sample.plain = .ok report s' ∧
        ("A.java", .failed e) ∈ report.entries := by
  intro artifact i source e
  have hmissing : i.ReportsMissing Sample.plain.files source { path := artifact }
      (.code .noEntry) :=
    ⟨rfl, Sample.eq_error_of_error? (by decide +kernel)⟩
  have hstands : i.settings.tree.Stands i.here Sample.plain.files := by decide +kernel
  have hdir : Sample.plain.files.directoryAt i.here (Sample.path "w") = .ok [Utf8.encode "w"] :=
    Sample.eq_ok_of_toOption (by decide +kernel)
  have hpaths : (([Utf8.encode "A.java"].map (Sample.path "w").join).filter
      (Sample.plain.files.isFile i.here)) = [source] := by
    decide +kernel
  have hl : i.listFiles (Sample.path "w") Sample.plain = .ok [source] Sample.plain := by
    rw [← hpaths, ← Sample.names_plain]
    exact listFiles_of_list (list_of_sorted hdir (by rw [Sample.names_plain]; simp))
  have hrun : Sample.runSorted i (Sample.path "w") [Utf8.encode "w"] Sample.plain =
      some (.inr [("A.java", .failed e)]) := by
    decide +kernel
  have hfiles : ∀ fs, (i.compiler fs source).files = fs := fun _ => rfl
  obtain ⟨hbuild, hinstall⟩ := missing_not_installed hmissing
  obtain ⟨hfile, hall⟩ := hinstall (by decide +kernel)
  rw [hfiles] at hbuild hfile
  obtain ⟨s', hreport⟩ := Sample.installAll_of_runSorted hrun
  exact ⟨hbuild hstands, hfile, _, s', hreport, (hall _ _ _ _ _ _
    ⟨Sample.plain, provision_of_stands hstands, hl, .start⟩).2 _ _ hreport⟩

/-- A source with an old artifact beside it, and the tree. -/
def Sample.stale : Session :=
  start [.file (path "w/A.java") [0x61], .file (path "w/A.class") [0x6F],
    .directory (path "home/jil/lib/std")]

/-- A compiler that writes nothing has an old file installed for it. It is told apart neither from
one that reports a path without a name nor from one after which there is no tree. -/
theorem Installer.stale_artifact_installed :
    let artifact := Sample.path "w/A.class"
    let source := Sample.path "w/A.java"
    let dest := Sample.path "home/jil/lib/std/A.class"
    let i := Sample.reporting artifact id
    (∀ fs, (i.compiler fs source).files = fs) ∧
      i.settings.tree.Stands [] Sample.stale.files ∧ i.settings.tree.Stands [] Sample.plain.files ∧
      Sample.stale.files.read [] dest = .error (.code .noEntry) ∧
      (∃ s', i.buildModule source true Sample.stale =
        .ok (.installed { path := artifact } dest) s' ∧ s'.files.read [] dest = .ok [0x6F]) ∧
      (∃ s', (Sample.reporting (Sample.path "w/..") id).buildModule source true Sample.plain =
        .error (.file .place (Sample.path "w/..") .noFileName) s') ∧
      ∃ s', (Sample.reporting artifact fun _ => .empty).buildModule source true Sample.plain =
        .error (.provision (.create (Sample.path "home/jil") (.code .noEntry))) s' := by
  intro artifact source dest i
  have hstale : value? (i.buildModule source true Sample.stale) =
      some (.installed { path := artifact } dest) := by
    decide +kernel
  refine ⟨fun _ => rfl, by decide +kernel, by decide +kernel,
    Sample.eq_error_of_error? (by decide +kernel), ?_, ?_, ?_⟩
  · exact ⟨_, value?_eq_some_iff.1 hstale, Sample.eq_ok_of_toOption (by decide +kernel)⟩
  · exact ⟨_, Sample.eq_error_of_failure? (by decide +kernel)⟩
  · exact ⟨_, Sample.eq_error_of_failure? (by decide +kernel)⟩

end ModuleInstall
