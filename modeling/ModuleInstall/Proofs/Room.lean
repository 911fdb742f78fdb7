import ModuleInstall.Proofs.Turns

/-! # Room for what is written -/

namespace ModuleInstall

open ModuleInstall.Action

/-- How many bytes a file holds. Nothing else takes room. -/
def Node.size : Node → Nat
  | .file content _ => content.length
  | _ => 0

/-- How many bytes all files hold together. -/
def FileSystem.size (fs : FileSystem) : Nat := fs.nodes.foldl (fun n e => n + e.2.size) 0

/-- Room for so many bytes in all files together. -/
def Room.upTo (capacity : Nat) : Room := fun fs _ => capacity - fs.size

theorem Action.save_of_room {ε : Type} {room : Room} {here : Location} {p : Path} {content : Bytes}
    {s : Session} (onError : SystemError → ε) (h : s.files.taken room here p content = content) :
    save room here p content onError s = save .ample here p content onError s := by
  rw [run_save, run_save, h, FileSystem.taken_ample]

namespace Installer

variable {i : Installer} {source path dir : Path} {artifact : Artifact} {s t : Session}
  {total number : Nat} {items rest : List (Path × Nat)} {entries : List (String × Outcome)}

/-- There is room for the copy of a module: all that is read from it is taken. -/
def RoomFor (i : Installer) (source : Path) (fs : FileSystem) : Prop :=
  ∀ n content, source.fileName? = some n → fs.read i.here source = .ok content →
    fs.taken i.room i.here (i.settings.tree.modulePath n) content = content

/-- There is room for what is copied at the turn of a file. -/
def RoomAt (i : Installer) (path : Path) (fs : FileSystem) : Prop :=
  match i.settings.kindOf path with
  | .source => ∀ artifact, (i.compiler fs path).result = .ok artifact →
      i.RoomFor artifact.path (i.compiler fs path).files
  | .precompiled => i.RoomFor path fs
  | .ignored => True

/-- Space does not run out in a run over a directory. -/
def HasRoom (i : Installer) (dir : Path) (s : Session) : Prop :=
  ∀ paths entries path number rest t, i.Runs dir s paths entries ((path, number) :: rest) t →
    i.RoomAt path t.files

/-- The installer with room for everything. -/
def unlimited (i : Installer) : Installer := { i with room := .ample }

theorem roomFor_of_ample (i : Installer) (h : i.room = .ample) (source : Path) (fs : FileSystem) :
    i.RoomFor source fs := by
  intro n content _ _
  rw [h, FileSystem.taken_ample]

theorem hasRoom_of_ample (h : i.room = .ample) (dir : Path) (s : Session) : i.HasRoom dir s := by
  intro paths entries path number rest t _
  unfold RoomAt
  split
  · exact fun artifact _ => i.roomFor_of_ample h artifact.path _
  · exact i.roomFor_of_ample h path t.files
  · trivial

/-! ## A limit that is not reached -/

theorem copyModule_unlimited (h : i.RoomFor source s.files) :
    i.unlimited.copyModule source s = i.copyModule source s := by
  rw [run_copyModule, run_copyModule]
  cases hn : source.fileName? with
  | none => rfl
  | some n =>
    have hread : s.files.read i.unlimited.here source = s.files.read i.here source := rfl
    rw [hread]
    cases hr : s.files.read i.here source with
    | error cause => rfl
    | ok content =>
      have hroom : (s.record [copying source (i.settings.tree.modulePath n)]).files.taken i.room
          i.here (i.settings.tree.modulePath n) content = content := h n content hn hr
      dsimp only
      rw [save_of_room (InstallError.file .write (i.settings.tree.modulePath n)) hroom]
      rfl

theorem moveArtifact_unlimited (h : i.RoomFor artifact.path s.files) :
    i.unlimited.moveArtifact artifact s = i.moveArtifact artifact s := by
  rw [run_moveArtifact, run_moveArtifact, copyModule_unlimited h]
  rfl

theorem handle_unlimited (h : i.RoomAt path s.files) :
    i.unlimited.handle path (i.settings.kindOf path) s =
      i.handle path (i.settings.kindOf path) s := by
  unfold RoomAt at h
  cases hk : i.settings.kindOf path with
  | source =>
    rw [hk] at h
    have hcompiler : i.unlimited.compiler = i.compiler := rfl
    rw [handle_source, handle_source, run_compileAndMove, run_compileAndMove, hcompiler]
    cases hr : (i.compiler s.files path).result with
    | error e => rfl
    | ok artifact =>
      have hroom : i.RoomFor artifact.path (i.afterCompiling path s).files := h artifact hr
      dsimp only
      rw [show i.unlimited.afterCompiling path s = i.afterCompiling path s from rfl,
        moveArtifact_unlimited hroom]
  | precompiled =>
    rw [hk] at h
    rw [handle_precompiled, handle_precompiled, copyModule_unlimited h]
  | ignored => rfl

theorem handleListed_unlimited (total number : Nat) (h : i.RoomAt path s.files) :
    i.unlimited.handleListed total path number s = i.handleListed total path number s := by
  have hsaid : i.unlimited.announcing total path number s = i.announcing total path number s := rfl
  have hkind : i.unlimited.settings.kindOf path = i.settings.kindOf path := rfl
  rw [run_handleListed, run_handleListed, hsaid, hkind, handle_unlimited]
  rwa [files_announcing]

theorem reaches_unlimited (hroom : ∀ entries path number rest t,
      i.Reaches total items s entries ((path, number) :: rest) t → i.RoomAt path t.files)
    (h : i.Reaches total items s entries rest t) :
    i.unlimited.Reaches total items s entries rest t := by
  induction h with
  | start => exact .start
  | @turn entries path number rest entry t t' hr hl ih =>
    exact .turn ih ((handleListed_unlimited total number (hroom _ _ _ _ _ hr)).trans hl)

theorem runs_unlimited {paths : List Path} (hroom : i.HasRoom dir s)
    (h : i.Runs dir s paths entries rest t) : i.unlimited.Runs dir s paths entries rest t := by
  obtain ⟨s₁, hp, hl, hr⟩ := h
  refine ⟨s₁, hp, hl, reaches_unlimited (fun entries path number rest t hr => ?_) hr⟩
  exact hroom paths entries path number rest t ⟨s₁, hp, hl, hr⟩

/-- Where space does not run out, a limit makes no difference. -/
theorem installAll_unlimited (hroom : i.HasRoom dir s) :
    i.unlimited.installAll dir s = i.installAll dir s := by
  cases h : i.installAll dir s with
  | ok report s' =>
    obtain ⟨paths, hr⟩ := installAll_ok_iff.1 h
    exact installAll_ok_iff.2 ⟨paths, runs_unlimited hroom hr⟩
  | error e s' =>
    refine installAll_error_iff.2 ?_
    rcases installAll_error_iff.1 h with
      hp | hl | ⟨paths, entries, path, number, rest, t, hr, hl⟩
    · exact Or.inl hp
    · exact Or.inr (Or.inl hl)
    · refine Or.inr (Or.inr ⟨paths, entries, path, number, rest, t, runs_unlimited hroom hr, ?_⟩)
      rw [handleListed_unlimited _ _ (hroom _ _ _ _ _ _ hr), hl]

end Installer

end ModuleInstall
