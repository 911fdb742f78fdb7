import ModuleInstall.Compile.Compiler
import ModuleInstall.Proofs.Kinds
import ModuleInstall.Proofs.Sample
import ModuleInstall.Proofs.Turns

/-! # How a run ends -/

namespace ModuleInstall.Installer

open ModuleInstall.Action

variable {i : Installer} {path dir : Path} {s s' t : Session} {e : InstallError}

/-! ## A copy -/

/-- What goes wrong with a copy into the tree: the first step that fails. -/
inductive CopyFails (i : Installer) (source : Path) (fs : FileSystem) : InstallError → Prop
  | place : source.fileName? = none → CopyFails i source fs (.file .place source .noFileName)
  | read {n : Name} {cause : SystemError} :
      source.fileName? = some n → fs.read i.here source = .error cause →
      CopyFails i source fs (.file .read source cause)
  | write {n : Name} {content : Bytes} {cause : SystemError} :
      source.fileName? = some n → fs.read i.here source = .ok content →
      fs.write i.here (i.settings.tree.modulePath n) content = .error cause →
      CopyFails i source fs (.file .write (i.settings.tree.modulePath n) cause)
  /-- There is not room for all of the content. -/
  | short {n : Name} {content : Bytes} {files : FileSystem} :
      source.fileName? = some n → fs.read i.here source = .ok content →
      fs.FallsShort i.room i.here (i.settings.tree.modulePath n) content files →
      CopyFails i source fs (.file .write (i.settings.tree.modulePath n) (.code .noSpace))

theorem copyFails_iff :
    (∃ s', i.copyModule path s = .error e s') ↔ i.CopyFails path s.files e := by
  rw [run_copyModule]
  constructor
  · rintro ⟨s', h⟩
    split at h
    · rename_i hn
      cases h
      exact .place hn
    rename_i n hn
    split at h
    · rename_i cause hr
      cases h
      exact .read hn hr
    rename_i content hr
    split at h
    · rename_i hsave
      cases h
      rcases save_eq_error_iff.1 hsave with ⟨cause, hw, rfl, -⟩ | ⟨files, hshort, rfl, -⟩
      · exact .write hn hr hw
      · exact .short hn hr hshort
    · cases h
  · intro h
    cases h with
    | place hn => exact ⟨s, by simp only [hn]⟩
    | read hn hr => exact ⟨s, by simp only [hn, hr]⟩
    | @write n content cause hn hr hw =>
      rw [← run_copyModule]
      exact ⟨_, copyModule_of_write_error hn hr hw⟩
    | @short n content files hn hr hshort =>
      have hsave : save i.room i.here (i.settings.tree.modulePath n) content
          (InstallError.file .write (i.settings.tree.modulePath n))
          (s.record [copying path (i.settings.tree.modulePath n)]) = _ :=
        save_eq_error_iff.2 (Or.inr ⟨files, hshort, rfl, rfl⟩)
      simp only [hn, hr, hsave]
      exact ⟨_, rfl⟩

/-! ## A source -/

/-- What goes wrong with a source: the first step that fails, from the file system in which its turn
begins. -/
inductive GoesWrong (i : Installer) (path : Path) (fs : FileSystem) : InstallError → Prop
  | compile {e : CompileError} :
      (i.compiler fs path).result = .error e → GoesWrong i path fs (.compile e)
  | copy {artifact : Artifact} {e : InstallError} :
      (i.compiler fs path).result = .ok artifact →
      i.CopyFails artifact.path (i.compiler fs path).files e → GoesWrong i path fs e
  | remove {artifact : Artifact} {n : Name} {content : Bytes} {files : FileSystem}
      {cause : SystemError} :
      (i.compiler fs path).result = .ok artifact → artifact.path.fileName? = some n →
      (i.compiler fs path).files.read i.here artifact.path = .ok content →
      (i.compiler fs path).files.taken i.room i.here (i.settings.tree.modulePath n) content =
        content →
      (i.compiler fs path).files.write i.here (i.settings.tree.modulePath n) content = .ok files →
      files.remove i.here artifact.path = .error cause →
      GoesWrong i path fs (.file .remove artifact.path cause)

theorem moveArtifact_error_iff {artifact : Artifact} :
    i.moveArtifact artifact s = .error e s' ↔
      i.copyModule artifact.path s = .error e s' ∨
        ∃ dest cause, i.copyModule artifact.path s = .ok dest s' ∧
          s'.files.remove i.here artifact.path = .error cause ∧
          e = .file .remove artifact.path cause := by
  unfold moveArtifact
  simp only [bind_eq_error_iff]
  constructor
  · rintro (h | ⟨dest, s₁, hc, h | ⟨_, _, _, h⟩⟩)
    · exact Or.inl h
    · obtain ⟨cause, hr, rfl, rfl⟩ := change_eq_error_iff.1 h
      exact Or.inr ⟨dest, cause, hc, hr, rfl⟩
    · cases h
  · rintro (h | ⟨dest, cause, hc, hr, rfl⟩)
    · exact Or.inl h
    · exact Or.inr ⟨dest, s', hc, Or.inl (change_eq_error_iff.2 ⟨cause, hr, rfl, rfl⟩)⟩

theorem compileAndMove_error_iff :
    i.compileAndMove path s = .error e s' ↔
      i.compile path s = .error e s' ∨
        ∃ artifact, (i.compiler s.files path).result = .ok artifact ∧
          i.moveArtifact artifact (i.afterCompiling path s) = .error e s' := by
  unfold compileAndMove
  simp only [bind_eq_error_iff]
  constructor
  · rintro (h | ⟨artifact, s₁, hc, h | ⟨_, _, _, h⟩⟩)
    · exact Or.inl h
    · obtain ⟨hr, rfl⟩ := compile_ok hc
      exact Or.inr ⟨artifact, hr, h⟩
    · cases h
  · rintro (h | ⟨artifact, hr, h⟩)
    · exact Or.inl h
    · refine Or.inr ⟨artifact, i.afterCompiling path s, ?_, Or.inl h⟩
      rw [run_compile, hr]

theorem goesWrong_iff :
    (∃ s', i.compileAndMove path s = .error e s') ↔ i.GoesWrong path s.files e := by
  constructor
  · rintro ⟨s', h⟩
    rcases compileAndMove_error_iff.1 h with h | ⟨artifact, hr, h⟩
    · rw [run_compile] at h
      split at h
      · cases h
      · rename_i cause hr
        cases h
        exact .compile hr
    · rcases moveArtifact_error_iff.1 h with h | ⟨dest, cause, hc, hrm, rfl⟩
      · exact .copy hr (copyFails_iff.1 ⟨s', h⟩)
      · obtain ⟨n, content, files, hn, rfl, hread, htaken, hwrite, rfl⟩ := copyModule_ok_iff.1 hc
        exact .remove hr hn hread htaken hwrite hrm
  · intro h
    cases h with
    | compile hr => exact ⟨_, compileAndMove_error_iff.2 (Or.inl (by rw [run_compile, hr]))⟩
    | @copy artifact _ hr hc =>
      obtain ⟨s', h⟩ := (copyFails_iff (s := i.afterCompiling path s)).2 hc
      have hm := moveArtifact_error_iff.2 (Or.inl h)
      exact ⟨s', compileAndMove_error_iff.2 (Or.inr ⟨artifact, hr, hm⟩)⟩
    | @remove artifact n content files cause hr hn hread htaken hwrite hrm =>
      have hc := copyModule_of_write (s := i.afterCompiling path s) hn hread htaken hwrite
      have hm := moveArtifact_error_iff.2 (Or.inr ⟨_, cause, hc, hrm, rfl⟩)
      exact ⟨_, compileAndMove_error_iff.2 (Or.inr ⟨artifact, hr, hm⟩)⟩

/-- A source ends no run. It is recorded as failed exactly if something goes wrong with it. -/
theorem handleListed_source (total number : Nat) (s : Session)
    (hk : i.settings.kindOf path = .source) :
    ∃ outcome t, i.handleListed total path number s = .ok (some (listedName path, outcome)) t ∧
      ∀ e, outcome = .failed e ↔ i.GoesWrong path s.files e := by
  rw [run_handleListed, hk, handle_source]
  have hwrong : ∀ e, (∃ s', i.compileAndMove path (i.announcing total path number s) = .error e s') ↔
      i.GoesWrong path s.files e := by
    intro e
    rw [goesWrong_iff, files_announcing]
  cases h : i.compileAndMove path (i.announcing total path number s) with
  | ok r s' =>
    obtain ⟨artifact, dest⟩ := r
    refine ⟨.installed artifact dest, s', rfl, fun e => ?_⟩
    rw [← hwrong, h]
    simp
  | error e' s' =>
    refine ⟨.failed e', _, rfl, fun e => ?_⟩
    rw [← hwrong, h]
    simp

theorem handleListed_precompiled_error_iff {total number : Nat}
    (hk : i.settings.kindOf path = .precompiled) :
    (∃ s', i.handleListed total path number s = .error e s') ↔ i.CopyFails path s.files e := by
  rw [run_handleListed, hk, handle_precompiled, ← files_announcing i total path number s,
    ← copyFails_iff]
  cases i.copyModule path (i.announcing total path number s) <;> simp

/-! ## A run -/

/-- Why a run over a directory ends early. -/
inductive Ends (i : Installer) (dir : Path) (s : Session) : InstallError → Prop
  | provision {e : ProvisionError} {s' : Session} :
      i.settings.tree.provision i.here s = .error e s' → Ends i dir s (.provision e)
  | list {s₁ : Session} {cause : SystemError} :
      i.provision s = .ok () s₁ → s₁.files.list i.here dir = .error cause →
      Ends i dir s (.file .list dir cause)
  | copy {paths : List Path} {entries : List (String × Outcome)} {path : Path} {number : Nat}
      {rest : List (Path × Nat)} {t : Session} {e : InstallError} :
      i.Runs dir s paths entries ((path, number) :: rest) t →
      i.settings.kindOf path = .precompiled → i.CopyFails path t.files e → Ends i dir s e

theorem ends_iff : (∃ s', i.installAll dir s = .error e s') ↔ i.Ends dir s e := by
  constructor
  · rintro ⟨s', h⟩
    rcases installAll_error_iff.1 h with
      h | ⟨s₁, hp, h⟩ | ⟨paths, entries, path, number, rest, t, hr, h⟩
    · obtain ⟨cause, hp, rfl⟩ := orFail_eq_error_iff.1 h
      exact .provision hp
    · obtain ⟨cause, hl, rfl, -⟩ := listFiles_error_iff.1 h
      exact .list hp hl
    · cases hk : i.settings.kindOf path with
      | source =>
        obtain ⟨outcome, t', hs, -⟩ := handleListed_source paths.length number t hk
        rw [hs] at h
        cases h
      | precompiled => exact .copy hr hk ((handleListed_precompiled_error_iff hk).1 ⟨s', h⟩)
      | ignored =>
        rw [run_handleListed, hk] at h
        cases h
  · intro h
    cases h with
    | provision hp =>
      exact ⟨_, installAll_error_iff.2 (Or.inl (orFail_eq_error_iff.2 ⟨_, hp, rfl⟩))⟩
    | @list s₁ cause hp hl =>
      refine ⟨s₁, installAll_error_iff.2 (Or.inr (Or.inl ⟨s₁, hp, ?_⟩))⟩
      exact listFiles_error_iff.2 ⟨cause, hl, rfl, rfl⟩
    | copy hr hk hc =>
      obtain ⟨s', h⟩ := (handleListed_precompiled_error_iff hk).2 hc
      exact ⟨s', installAll_error_iff.2 (Or.inr (Or.inr ⟨_, _, _, _, _, _, hr, h⟩))⟩

theorem shape_of_ends (h : i.Ends dir s e) :
    (∃ cause, e = .provision cause) ∨
      ∃ task ∈ [FileTask.list, .read, .write], ∃ path cause, e = .file task path cause := by
  cases h with
  | provision hp => exact Or.inl ⟨_, rfl⟩
  | list hp hl => exact Or.inr ⟨.list, by simp, dir, _, rfl⟩
  | copy hr hk hc =>
    cases hc with
    | place hn =>
      obtain ⟨n, hn'⟩ := Settings.fileName?_of_kindOf (s := i.settings) (by rw [hk]; simp)
      simp [hn] at hn'
    | read hn hread => exact Or.inr ⟨.read, by simp, _, _, rfl⟩
    | write hn hread hwrite => exact Or.inr ⟨.write, by simp, _, _, rfl⟩
    | short hn hread hshort => exact Or.inr ⟨.write, by simp, _, _, rfl⟩

theorem compiler_names_sources {m : Machine} {settings : Settings} {here : Location}
    {fs : FileSystem} (hk : i.settings.kindOf path = .source) (fault : Path.ExtensionFault) :
    (m.compiler settings here fs path).result ≠ .error (.unnamable fault) := by
  obtain ⟨artifact, ha⟩ := Settings.artifactPath_of_source settings hk
  unfold Machine.compiler
  simp only [ha]
  cases m.start here (settings.invocation path) fs with
  | error e => simp
  | ok started =>
    obtain ⟨directory, launch⟩ := started
    dsimp only
    split <;> simp

/-- Which failures end a run over a directory, and which do not: a run ends early for the reasons of
`Ends` alone, each source with which something goes wrong is recorded and the run goes on, and the
compiler of a machine is never asked for an artifact without a name. An end for the cause
`wouldBlock` is a run that waits at a pipe. -/
theorem installAll_ends_early_iff (i : Installer) (dir : Path) (s : Session) :
    (∀ e, (∃ s', i.installAll dir s = .error e s') ↔ i.Ends dir s e) ∧
    (∀ e s', i.installAll dir s = .error e s' → (∃ cause, e = .provision cause) ∨
      ∃ task ∈ [FileTask.list, .read, .write], ∃ path cause, e = .file task path cause) ∧
    ∀ paths entries path number rest t, i.Runs dir s paths entries ((path, number) :: rest) t →
      i.settings.kindOf path = .source →
        (∃ outcome t', i.handleListed paths.length path number t =
            .ok (some (listedName path, outcome)) t' ∧
          (∀ e, outcome = .failed e ↔ i.GoesWrong path t.files e) ∧
          i.Runs dir s paths (entries ++ [(listedName path, outcome)]) rest t') ∧
        ∀ (m : Machine) (settings : Settings) (here : Location) (fault : Path.ExtensionFault),
          (m.compiler settings here t.files path).result ≠ .error (.unnamable fault) := by
  refine ⟨fun e => ends_iff, fun e s' h => shape_of_ends (ends_iff.1 ⟨s', h⟩), ?_⟩
  intro paths entries path number rest t hr hk
  refine ⟨?_, fun m settings here => compiler_names_sources hk⟩
  obtain ⟨outcome, t', hl, hwrong⟩ := handleListed_source paths.length number t hk
  exact ⟨outcome, t', hl, hwrong, runs_turn hr hl⟩

theorem installAll_ends_crowded :
    Sample.writer.Ends (Sample.path "w") Sample.crowded
      (.file .write (Sample.path "home/jil/lib/std/B.jil") (.code .isDirectory)) := by
  have hrun : Sample.runSorted Sample.writer (Sample.path "w") [Utf8.encode "w"] Sample.crowded =
      some (.inl (.file .write (Sample.path "home/jil/lib/std/B.jil") (.code .isDirectory))) := by
    decide +kernel
  obtain ⟨s', h⟩ := Sample.installAll_of_runSorted hrun
  exact ((installAll_ends_early_iff Sample.writer (Sample.path "w") Sample.crowded).1 _).1 ⟨s', h⟩

end ModuleInstall.Installer
