import ModuleInstall.Proofs.Ensuring
import ModuleInstall.Proofs.Listing
import ModuleInstall.Proofs.Moving

/-! # A tree that stands -/

namespace ModuleInstall

open FileSystem ModuleInstall.Action

namespace FileSystem

variable {fs fs' : FileSystem} {here loc dir spot : Location} {p q : Path} {place : Place}
  {slash : Bool} {steps : List Step} {fixed : Bool} {content : Bytes} {budget : Nat}

/-! ## The way to a directory -/

/-- Up to the next link, only the last entry that a walk goes over can be other than a directory. -/
theorem of_mem_stretchTrail (hs : ¬ fs.IsDirectory spot)
    (h : spot ∈ fs.stretchTrail .followed slash loc steps) :
    (∀ place, fs.stretch .followed slash loc steps = .ends place → place.location = spot) ∧
      ∀ dir target rest, fs.stretch .followed slash loc steps = .meets dir target rest →
        ∃ n, spot = n :: dir ∧ fs.node? spot = some (.link target) := by
  induction loc, steps using walk_induction with
  | nil loc => simp [stretchTrail] at h
  | here loc rest ih => exact ih h
  | up loc rest ih => exact ih h
  | last loc n =>
    rw [stretchTrail_last] at h
    rw [stretch_last]
    simp only [LastLink.passesOver, LastLink.follows, Bool.false_eq_true, if_false, if_true,
      Bool.false_or, decide_eq_true_eq] at h ⊢
    split at h
    · cases h
    rename_i hn
    obtain rfl := List.mem_singleton.1 h
    rw [if_neg hn]
    rcases hx : fs.node? (n :: loc) with _ | ⟨_ | _ | target | _⟩
    case some.link =>
      refine ⟨by simp, fun dir target' rest hm => ?_⟩
      cases hm
      exact ⟨n, rfl, rfl⟩
    all_goals
      refine ⟨fun place hp => ?_, by simp⟩
      cases hp
      rfl
  | name loc n rest hr ih =>
    rw [stretchTrail_name _ _ _ _ _ hr] at h
    rw [stretch_name _ _ _ _ _ hr]
    split at h
    · cases h
    rename_i hn
    rw [if_neg hn]
    rcases hx : fs.node? (n :: loc) with _ | ⟨fixed | _ | target | _⟩ <;> simp only [hx] at h ⊢
    case some.directory =>
      rcases List.mem_cons.1 h with rfl | h
      · exact absurd ⟨fixed, hx⟩ hs
      · exact ih h
    case some.link =>
      obtain rfl := List.mem_singleton.1 h
      refine ⟨by simp, fun dir target' rest hm => ?_⟩
      cases hm
      exact ⟨n, rfl, hx⟩
    all_goals exact ⟨by simp, by simp⟩

theorem not_mem_trailFrom_of_astray (hs : ¬ fs.IsDirectory spot) (ha : fs.Astray spot)
    (h : fs.Arrives .followed place budget slash loc steps) (hd : fs.IsDirectory place.location) :
    spot ∉ fs.trailFrom .followed budget slash loc steps := by
  induction h with
  | ends hm =>
    rw [trailFrom_of_ends hm]
    intro hmem
    exact hs ((of_mem_stretchTrail hs hmem).1 _ hm ▸ hd)
  | @meets budget slash loc dir steps rest target hm hne hw ih =>
    have hstart := isDirectory_start (Route.ofBytes target) (isDirectory_of_stretch_meets hm)
    rw [trailFrom_of_meets hm, if_neg hne, List.mem_append, not_or]
    refine ⟨fun hmem => ?_, ih⟩
    obtain ⟨n, he, hx⟩ := (of_mem_stretchTrail hs hmem).2 _ _ _ hm
    -- What comes after the link, if anything, needs a directory to go on from.
    by_cases hr : rest = []
    · rw [hr, List.append_nil] at hw
      exact ha n dir target he hx hne _ _ _ hw hd
    · obtain ⟨place', hp, hd'⟩ := arrives_of_append hr hstart hw false
      exact ha n dir target he hx hne _ _ _ hp hd'

/-! ## What directories outlast -/

theorem stat_directory_iff :
    fs.stat here p = .ok (.directory fixed) ↔
      ∃ place, fs.walk .followed here p = .ok place ∧
        fs.node? place.location = some (.directory fixed) := by
  simp only [stat_eq_ok_iff, nodeAt_eq_ok_iff]
  refine exists_congr fun place => and_congr_right fun _ => and_iff_left ?_
  exact fun _ _ _ => rfl

theorem stat_of_write {node : Node} (h : fs.write here p content = .ok fs')
    (hq : fs.stat here q = .ok node) :
    fs'.stat here q = .ok node ∨
      ∃ c x x', node = .file c x ∧ fs'.stat here q = .ok (.file content x') := by
  obtain ⟨dir, n, x', -, -, hwas, hnow, hothers⟩ := write_spec h
  obtain ⟨place, hw, hn⟩ := stat_eq_ok_iff.1 hq
  obtain ⟨hx, hslash⟩ := nodeAt_eq_ok_iff.1 hn
  have hw' := walk_of_write h hw
  by_cases hs : place.location = n :: dir
  · rw [hs] at hx
    rcases hwas with hnone | ⟨c, x, hfile⟩
    · rw [hnone] at hx
      cases hx
    · obtain rfl : node = .file c x := Option.some.inj (hx.symm.trans hfile)
      refine Or.inr ⟨c, x, x', rfl, stat_eq_ok_iff.2 ⟨place, hw', ?_⟩⟩
      exact nodeAt_eq_ok_iff.2 ⟨hs ▸ hnow, hslash⟩
  · refine Or.inl (stat_eq_ok_iff.2 ⟨place, hw', nodeAt_eq_ok_iff.2 ⟨?_, hslash⟩⟩)
    rw [hothers _ hs, hx]

theorem stat_directory_of_remove (h : fs.remove here p = .ok fs') {x : Bool}
    (hp : fs.stat here p = .ok (.file content x)) (hq : fs.stat here q = .ok (.directory fixed)) :
    fs'.stat here q = .ok (.directory fixed) := by
  obtain ⟨dir, n, node, hw, -, hx, hd, rfl⟩ := remove_spec h
  have hlost := lost_erase hx hd
  have hnot : ¬ fs.IsDirectory (n :: dir) := by
    rintro ⟨fixed', hf⟩
    rw [hx] at hf
    cases hf
    cases hd
  have hastray : fs.Astray (n :: dir) := astray_of_stat hw (by simp [hp]) (by simp [hp])
  obtain ⟨place, hwq, hdir⟩ := stat_directory_iff.1 hq
  obtain ⟨route, hr, ha⟩ := walk_eq_ok_iff.1 hwq
  have hoff : n :: dir ∉ fs.trail .followed here q := by
    simpa only [trail, hr] using not_mem_trailFrom_of_astray hnot hastray ha ⟨fixed, hdir⟩
  refine stat_directory_iff.2 ⟨place, (walk_of_off hlost.others hoff).trans hwq, ?_⟩
  rw [hlost.others, hdir]
  rintro he
  exact hnot ⟨fixed, he ▸ hdir⟩

end FileSystem

/-! ## Nothing to be done -/

/-- Every level of the tree is a directory. -/
def Tree.Stands (t : Tree) (here : Location) (fs : FileSystem) : Prop :=
  ∀ level ∈ t.levels, ∃ fixed, fs.stat here level = .ok (.directory fixed)

instance (t : Tree) (here : Location) (fs : FileSystem) : Decidable (t.Stands here fs) :=
  decidable_of_iff
    (∀ level ∈ t.levels, ∃ fixed, (fs.stat here level).toOption = some (.directory fixed))
    ⟨fun h level hl => (h level hl).imp fun _ => Sample.eq_ok_of_toOption,
      fun h level hl => (h level hl).imp fun _ hs => by rw [hs]; rfl⟩

namespace Tree

variable {t : Tree} {here : Location} {s s' : Session} {fs fs' : FileSystem} {u : Unit}

theorem provision_of_stands (h : t.Stands here s.files) : t.provision here s = .ok () s :=
  ensureAll_of_directories h

theorem stands_of_provision (h : t.provision here s = .ok u s') : t.Stands here s'.files :=
  (ensureAll_ok h).directories

theorem Stands.of_write {p : Path} {content : Bytes} (h : t.Stands here fs)
    (hw : fs.write here p content = .ok fs') : t.Stands here fs' := by
  intro level hl
  obtain ⟨fixed, hd⟩ := h level hl
  rcases stat_of_write hw hd with hd | ⟨_, _, _, hf, -⟩
  · exact ⟨fixed, hd⟩
  · cases hf

theorem Stands.of_remove {p : Path} {content : Bytes} {x : Bool} (h : t.Stands here fs)
    (hp : fs.stat here p = .ok (.file content x)) (hr : fs.remove here p = .ok fs') :
    t.Stands here fs' := by
  intro level hl
  obtain ⟨fixed, hd⟩ := h level hl
  exact ⟨fixed, stat_directory_of_remove hr hp hd⟩

end Tree

namespace Installer

variable {i : Installer} {source path : Path} {artifact : Artifact} {s : Session}

theorem provision_of_stands (h : i.settings.tree.Stands i.here s.files) :
    i.provision s = .ok () s :=
  orFail_eq_ok_iff.2 (Tree.provision_of_stands h)

theorem directoryAt_std_of_provision {s' : Session} (h : i.provision s = .ok () s') :
    ∃ S, s'.files.directoryAt i.here i.settings.tree.std = .ok S := by
  have hstd : i.settings.tree.std ∈ i.settings.tree.levels := by simp [Tree.levels]
  obtain ⟨fixed, hst⟩ := (shaped_of_provision h).directories _ hstd
  obtain ⟨place, hw, hn⟩ := stat_eq_ok_iff.1 hst
  exact ⟨_, directoryAt_eq_ok_iff.2 ⟨place, hw, rfl, fixed, (nodeAt_eq_ok_iff.1 hn).1⟩⟩

/-! ## A tree that keeps standing -/

theorem stands_of_copyModule (source : Path) (h : i.settings.tree.Stands i.here s.files) :
    i.settings.tree.Stands i.here (after (i.copyModule source s)).files := by
  rcases i.files_after_copyModule source s with hsame | ⟨n, content, kept, -, -, -, hw⟩
  · rwa [hsame]
  · exact h.of_write hw

theorem stat_of_copyModule {dest : Path} {s₁ : Session} (h : i.copyModule source s = .ok dest s₁) :
    ∃ content x, s₁.files.stat i.here source = .ok (.file content x) := by
  obtain ⟨n, content, -, -, hr, hw⟩ := copyModule_ok h
  obtain ⟨x, hst⟩ := read_eq_ok_iff.1 hr
  rcases stat_of_write hw hst with hst | ⟨_, _, x', -, hst⟩
  · exact ⟨content, x, hst⟩
  · exact ⟨content, x', hst⟩

theorem stands_of_moveArtifact (artifact : Artifact)
    (h : i.settings.tree.Stands i.here s.files) :
    i.settings.tree.Stands i.here (after (i.moveArtifact artifact s)).files := by
  have hcopy := stands_of_copyModule artifact.path h
  rw [run_moveArtifact]
  cases hc : i.copyModule artifact.path s with
  | error e s₁ =>
    rw [hc] at hcopy
    exact hcopy
  | ok dest s₁ =>
    rw [hc] at hcopy
    dsimp only
    cases hr : s₁.files.remove i.here artifact.path with
    | error cause => exact hcopy
    | ok files =>
      obtain ⟨content, x, hst⟩ := stat_of_copyModule hc
      exact hcopy.of_remove hst hr

end Installer

end ModuleInstall
