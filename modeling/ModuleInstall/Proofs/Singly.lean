import ModuleInstall.Proofs.Levels
import ModuleInstall.Proofs.Sample
import ModuleInstall.Proofs.IgnoredEvents

/-! # Installing modules one by one -/

namespace ModuleInstall

open ModuleInstall.Action

namespace Installer

variable {i : Installer} {path dir : Path} {s t s₁ : Session} {total number : Nat}
  {items rest : List (Path × Nat)} {paths : List Path} {entries : List (String × Outcome)}

/-! ## One module -/

/-- When the compiler has succeeded with a source, every level of the tree is a directory. -/
def StandsCompiled (i : Installer) (path : Path) (fs : FileSystem) : Prop :=
  ∀ artifact, (i.compiler fs path).result = .ok artifact →
    i.settings.tree.Stands i.here (i.compiler fs path).files

theorem resultAndFiles_buildModule (h : i.StandsCompiled path s.files) :
    resultAndFiles (i.buildModule path true s) =
      resultAndFiles ((do
        let (artifact, dest) ← i.compileAndMove path
        return .installed artifact dest : Action InstallError Built) s) := by
  unfold buildModule compileAndMove
  simp only [bind_assoc, pure_bind, if_true]
  rw [run_bind_of_ok (run_print _ _)]
  refine resultAndFiles_bind (i.ignoresEvents_compile path _ _ rfl) fun artifact s' t' hs _ hfiles => ?_
  obtain ⟨hr, rfl⟩ := compile_ok hs
  rw [run_bind_of_ok (provision_of_stands (h artifact hr)), run_bind_of_ok (run_print _ _)]
  exact resultAndFiles_bind (i.ignoresEvents_moveArtifact artifact _ _ hfiles) fun dest _ _ _ _ hfiles =>
    IgnoresEvents.pure _ _ _ hfiles

theorem source_ends (h : i.StandsCompiled path s.files) :
    (∃ artifact dest files,
      resultAndFiles (i.handle path .source s) = (.ok (some (.installed artifact dest)), files) ∧
      resultAndFiles (i.buildModule path true s) = (.ok (.installed artifact dest), files)) ∨
    ∃ e files, resultAndFiles (i.handle path .source s) = (.ok (some (.failed e)), files) ∧
      resultAndFiles (i.buildModule path true s) = (.error e, files) := by
  rw [resultAndFiles_buildModule h, handle_source]
  cases hr : i.compileAndMove path s with
  | ok built s' =>
    obtain ⟨artifact, dest⟩ := built
    rw [run_bind_of_ok hr]
    exact Or.inl ⟨artifact, dest, s'.files, rfl, rfl⟩
  | error e s' =>
    rw [run_bind_of_error hr]
    exact Or.inr ⟨e, s'.files, rfl, rfl⟩

/-! ## A directory -/

/-- Handles a file as if there were no other. A source is built by itself. -/
def handleSingly (i : Installer) (path : Path) : Action InstallError (Option Outcome) :=
  match i.settings.kindOf path with
  | .source => do
    match ← attempt (i.buildModule path true) with
    | .ok (.installed artifact dest) => return some (.installed artifact dest)
    | .ok (.compiled _) => return none
    | .error e => return some (.failed e)
  | .precompiled => i.installFile path
  | .ignored => return none

def handleEach (i : Installer) : List Path → Action InstallError (List (String × Outcome))
  | [] => return []
  | path :: rest => do
    let outcome ← i.handleSingly path
    let entries ← handleEach i rest
    return (outcome.map (listedName path, ·)).toList ++ entries

theorem resultAndFiles_handleSingly
    (h : i.settings.kindOf path = .source → i.StandsCompiled path s.files) :
    resultAndFiles (i.handleSingly path s) =
      resultAndFiles (i.handle path (i.settings.kindOf path) s) := by
  unfold handleSingly
  cases hk : i.settings.kindOf path with
  | source =>
    rcases source_ends (h hk) with ⟨artifact, dest, files, hh, hb⟩ | ⟨e, files, hh, hb⟩
    · obtain ⟨s', hrun, rfl⟩ := resultAndFiles_eq_ok_iff.1 hb
      rw [hh]
      exact congrArg resultAndFiles (run_bind_of_ok (attempt_eq_ok_iff.2 (Or.inl ⟨_, rfl, hrun⟩)))
    · obtain ⟨s', hrun, rfl⟩ := resultAndFiles_eq_error_iff.1 hb
      rw [hh]
      exact congrArg resultAndFiles (run_bind_of_ok (attempt_eq_ok_iff.2 (Or.inr ⟨_, rfl, hrun⟩)))
  | precompiled =>
    dsimp only
    rw [installFile, hk]
  | ignored => rfl

/-- A compiler run for a listed source leaves the levels of a standing tree directories. -/
def SparesLevels (i : Installer) (total : Nat) (items : List (Path × Nat)) (s : Session) : Prop :=
  ∀ entries path number rest t, i.Reaches total items s entries ((path, number) :: rest) t →
    i.settings.kindOf path = .source → i.settings.tree.Stands i.here t.files →
    i.settings.tree.Stands i.here (i.compiler t.files path).files

theorem stands_of_handle (hs : i.settings.tree.Stands i.here s.files)
    (h : i.settings.kindOf path = .source →
      i.settings.tree.Stands i.here (i.compiler s.files path).files) :
    i.settings.tree.Stands i.here (after (i.handle path (i.settings.kindOf path) s)).files := by
  cases hk : i.settings.kindOf path with
  | source =>
    have hafter : i.settings.tree.Stands i.here (i.afterCompiling path s).files := h hk
    rw [handle_source, run_compileAndMove]
    cases hr : (i.compiler s.files path).result with
    | error e => exact hafter
    | ok artifact =>
      have hmove := stands_of_moveArtifact artifact hafter
      dsimp only
      cases hm : i.moveArtifact artifact (i.afterCompiling path s) <;> rw [hm] at hmove <;>
        exact hmove
  | precompiled =>
    have hcopy := stands_of_copyModule path hs
    rw [handle_precompiled]
    cases hc : i.copyModule path s <;> rw [hc] at hcopy <;> exact hcopy
  | ignored => exact hs

theorem stands_of_handleListed {entry : Option (String × Outcome)}
    (hs : i.settings.tree.Stands i.here s.files)
    (h : i.settings.kindOf path = .source →
      i.settings.tree.Stands i.here (i.compiler s.files path).files)
    (hl : i.handleListed total path number s = .ok entry t) :
    i.settings.tree.Stands i.here t.files := by
  have hup := i.resultAndFiles_handleListed total path number s
  rw [hl] at hup
  obtain ⟨t', ht, hfiles⟩ := resultAndFiles_eq_ok_iff.1 hup.symm
  obtain ⟨outcome, t₁, hh, hret⟩ := bind_eq_ok_iff.1 ht
  have hstands := stands_of_handle hs h
  cases hret
  rw [hh] at hstands
  rw [← hfiles]
  exact hstands

theorem resultAndFiles_handleAll (hfiles : s.files = t.files)
    (hs : i.settings.tree.Stands i.here s.files) (h : i.SparesLevels total items s) :
    resultAndFiles (i.handleAll total items s) =
      resultAndFiles (i.handleEach (items.map Prod.fst) t) := by
  induction items generalizing s t with
  | nil => exact IgnoresEvents.pure _ _ _ hfiles
  | cons item items ih =>
    obtain ⟨path, number⟩ := item
    have hcompiled : i.settings.kindOf path = .source →
        i.settings.tree.Stands i.here (i.compiler s.files path).files :=
      fun hk => h [] path number items s .start hk hs
    have hturn : resultAndFiles (i.handleListed total path number s) =
        resultAndFiles ((do
          let outcome ← i.handleSingly path
          return outcome.map (listedName path, ·) : Action _ _) t) := by
      rw [i.resultAndFiles_handleListed]
      refine resultAndFiles_bind ?_ fun outcome _ _ _ _ hfiles => IgnoresEvents.pure _ _ _ hfiles
      rw [resultAndFiles_handleSingly fun hk _ _ => hfiles ▸ hcompiled hk]
      exact i.ignoresEvents_handle path _ s t hfiles
    have hsplit : i.handleEach (path :: items.map Prod.fst) = (do
        let entry ← (do
          let outcome ← i.handleSingly path
          return outcome.map (listedName path, ·) : Action _ _)
        let entries ← i.handleEach (items.map Prod.fst)
        return entry.toList ++ entries) := by
      simp only [handleEach, bind_assoc, pure_bind]
    rw [List.map_cons, hsplit, handleAll]
    refine resultAndFiles_bind hturn fun entry s' t' hl _ hfiles' => ?_
    refine resultAndFiles_bind (ih hfiles' (stands_of_handleListed hs hcompiled hl) ?_)
      fun _ _ _ _ _ hfiles => IgnoresEvents.pure _ _ _ hfiles
    intro entries path' number' rest u hr
    exact h _ path' number' rest u (reaches_append (.turn .start hl) hr)

/-- Handling a source in a directory is building it by itself, and so a run over a directory is a
run over its files one by one, as long as no compiler destroys a level of the tree. -/
theorem bulk_agrees_with_single (i : Installer) :
    (∀ path s, i.settings.kindOf path = .source → i.StandsCompiled path s.files →
      (∀ artifact dest files,
        resultAndFiles (i.installFile path s) = (.ok (some (.installed artifact dest)), files) ↔
          resultAndFiles (i.buildModule path true s) = (.ok (.installed artifact dest), files)) ∧
      (∀ e files, resultAndFiles (i.installFile path s) = (.ok (some (.failed e)), files) ↔
        resultAndFiles (i.buildModule path true s) = (.error e, files)) ∧
      (resultAndFiles (i.installFile path s)).2 = (resultAndFiles (i.buildModule path true s)).2) ∧
    ∀ dir s s₁ paths, i.provision s = .ok () s₁ → i.listFiles dir s₁ = .ok paths s₁ →
      i.SparesLevels paths.length (paths.zipIdx 1) s₁ →
      resultAndFiles (i.installAll dir s) =
        resultAndFiles ((do
          let entries ← i.handleEach paths
          return { entries } : Action InstallError Report) s₁) := by
  refine ⟨fun path s hk hc => ?_, fun dir s s₁ paths hp hl hspare => ?_⟩
  · rw [installFile, hk]
    rcases source_ends hc with ⟨artifact, dest, files, hh, hb⟩ | ⟨e, files, hh, hb⟩ <;>
      rw [hh, hb] <;> simp
  · have hs : i.settings.tree.Stands i.here s₁.files :=
      Tree.stands_of_provision (orFail_eq_ok_iff.1 hp)
    unfold installAll
    rw [run_bind_of_ok hp, run_bind_of_ok hl]
    refine resultAndFiles_bind ?_ fun entries _ _ _ _ hfiles => IgnoresEvents.pure _ _ _ hfiles
    rw [resultAndFiles_handleAll rfl hs hspare, List.zipIdx_map_fst]

theorem stands_writing {settings : Settings} {here : Location} {fs : FileSystem} {tree : Tree}
    (source : Path) (h : tree.Stands here fs) :
    tree.Stands here (Sample.writing settings here fs source).files := by
  unfold Sample.writing
  cases settings.artifactPath source with
  | error fault => exact h
  | ok artifact =>
    dsimp only
    cases hw : fs.write here artifact [0x2A] with
    | error cause => exact h
    | ok files => exact h.of_write hw

theorem stands_writer {fs : FileSystem} (source : Path)
    (h : Sample.writer.settings.tree.Stands Sample.writer.here fs) :
    Sample.writer.settings.tree.Stands Sample.writer.here
      (Sample.writer.compiler fs source).files :=
  stands_writing source h

theorem stands_plain :
    Sample.writer.settings.tree.Stands Sample.writer.here Sample.plain.files := by
  decide +kernel

theorem bulk_agrees_with_single_writer :
    (∀ artifact dest files,
      resultAndFiles (Sample.writer.installFile (Sample.path "w/A.java") Sample.plain) =
          (.ok (some (.installed artifact dest)), files) ↔
        resultAndFiles (Sample.writer.buildModule (Sample.path "w/A.java") true Sample.plain) =
          (.ok (.installed artifact dest), files)) ∧
    ∃ s₁ paths, Sample.writer.provision Sample.mixed = .ok () s₁ ∧
      Sample.writer.listFiles (Sample.path "w") s₁ = .ok paths s₁ ∧
      resultAndFiles (Sample.writer.installAll (Sample.path "w") Sample.mixed) =
        resultAndFiles ((do
          let entries ← Sample.writer.handleEach paths
          return { entries } : Action InstallError Report) s₁) := by
  refine ⟨?_, ?_⟩
  · refine ((bulk_agrees_with_single Sample.writer).1 _ _ (by decide +kernel) fun _ _ => ?_).1
    exact stands_writer _ stands_plain
  · obtain ⟨s', hrun⟩ := Sample.installAll_of_runSorted Sample.runSorted_mixed
    obtain ⟨paths, s₁, hp, hl, -⟩ := installAll_ok_iff.1 hrun
    refine ⟨s₁, paths, hp, hl, (bulk_agrees_with_single Sample.writer).2 _ _ _ _ hp hl ?_⟩
    exact fun _ path _ _ _ _ _ hs => stands_writer path hs

end Installer

end ModuleInstall
