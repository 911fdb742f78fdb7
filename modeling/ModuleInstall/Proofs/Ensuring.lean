import ModuleInstall.Proofs.Linkless
import ModuleInstall.Proofs.Moving
import ModuleInstall.Proofs.Replacing

/-! # Making sure of one directory after another -/

namespace ModuleInstall

open FileSystem ModuleInstall.Action

variable {here : Location} {levels more : List Path} {p q : Path} {fs fs₁ fs' : FileSystem}
  {s s' : Session} {u : Unit}

/-! ## What has changed -/

/-- Nothing has changed from the first file system to the second but entries of levels, all of which
are directories in the second. -/
structure Shaped (here : Location) (levels : List Path) (fs fs' : FileSystem) : Prop where
  directories : ∀ level ∈ levels, ∃ fixed, fs'.stat here level = .ok (.directory fixed)
  changed : ∀ l, fs'.node? l ≠ fs.node? l →
    (∃ level ∈ levels, fs'.Names here level l) ∧ ¬ fs.IsDirectory l ∧
      fs'.node? l = some (.directory false)
  /-- What a path stands for, it stands for still, or it stands for a directory by now. -/
  stands : ∀ q node, fs.stat here q = .ok node →
    fs'.stat here q = .ok node ∨ fs'.stat here q = .ok (.directory false)
  /-- A path that names an entry still does, and it is the same one. -/
  walks : ∀ q place, fs.walk .kept here q = .ok place → fs'.walk .kept here q = .ok place

namespace Shaped

theorem names {l : Location} (h : Shaped here levels fs fs') (hn : fs.Names here q l) :
    fs'.Names here q l := by
  obtain ⟨dir, n, slash, hw, he⟩ := hn
  exact ⟨dir, n, slash, h.walks q _ hw, he⟩

theorem isDirectory (h : Shaped here levels fs fs')
    (hq : ∃ fixed, fs.stat here q = .ok (.directory fixed)) :
    ∃ fixed, fs'.stat here q = .ok (.directory fixed) := by
  obtain ⟨fixed, hq⟩ := hq
  exact (h.stands q _ hq).elim (fun h => ⟨fixed, h⟩) fun h => ⟨false, h⟩

theorem linkless (h : Shaped here levels fs fs') (hl : fs.Linkless) : fs'.Linkless := by
  intro l target hx
  by_cases hc : fs'.node? l = fs.node? l
  · exact hl l target (hc ▸ hx)
  · rw [(h.changed l hc).2.2] at hx
    cases hx

theorem refl (here : Location) (fs : FileSystem) : Shaped here [] fs fs where
  directories := by simp
  changed l hc := absurd rfl hc
  stands _ _ h := Or.inl h
  walks _ _ h := h

theorem trans (h : Shaped here levels fs fs₁) (h' : Shaped here more fs₁ fs') :
    Shaped here (levels ++ more) fs fs' where
  directories level hm := by
    rcases List.mem_append.1 hm with hm | hm
    · exact h'.isDirectory (h.directories level hm)
    · exact h'.directories level hm
  changed l hc := by
    by_cases hc' : fs'.node? l = fs₁.node? l
    · obtain ⟨⟨level, hm, hnames⟩, hwas, hnow⟩ := h.changed l (hc' ▸ hc)
      exact ⟨⟨level, List.mem_append_left _ hm, h'.names hnames⟩, hwas, hc'.trans hnow⟩
    · obtain ⟨⟨level, hm, hnames⟩, hwas, hnow⟩ := h'.changed l hc'
      refine ⟨⟨level, List.mem_append_right _ hm, hnames⟩, ?_, hnow⟩
      -- What has become a directory on the way would be one of the levels behind it, too.
      by_cases hc₁ : fs₁.node? l = fs.node? l
      · rwa [IsDirectory, ← hc₁]
      · exact absurd ⟨false, (h.changed l hc₁).2.2⟩ hwas
  stands q node hq := by
    rcases h.stands q node hq with hq | hq
    · exact h'.stands q node hq
    · exact Or.inr ((h'.stands q _ hq).elim id id)
  walks q place hq := h'.walks q place (h.walks q place hq)

end Shaped

theorem shaped_of_ensureDirectory (h : ensureDirectory here p s = .ok u s') :
    Shaped here [p] s.files s'.files where
  directories := by simpa using isDirectory_of_ensureDirectory h
  changed l hc := by
    rcases ensureDirectory_ok h with ⟨hf, -⟩ | ⟨spot, hnames, hl⟩
    · exact absurd (by rw [hf]) hc
    · obtain rfl : l = spot := Decidable.byContradiction fun hne => hc (hl.others l hne)
      exact ⟨⟨p, List.mem_singleton_self p, hnames.of_levelled hl⟩, hl.was, hl.now⟩
  stands q node hq := stat_of_ensureDirectory h hq
  walks q place hq := by
    rcases ensureDirectory_ok h with ⟨hf, -⟩ | ⟨spot, -, hl⟩
    · rwa [hf]
    · exact walk_kept_of_astray hl.was hl.astray hl.others hq

/-! ## One level after the other -/

/-- Makes sure of levels one after the other. -/
def ensureAll (here : Location) (levels : List Path) : Action ProvisionError Unit :=
  levels.forM (ensureDirectory here)

theorem ensureAll_cons (here : Location) (level : Path) (levels : List Path) :
    ensureAll here (level :: levels) = (do ensureDirectory here level; ensureAll here levels) := rfl

theorem ensureAll_ok (h : ensureAll here levels s = .ok u s') :
    Shaped here levels s.files s'.files := by
  induction levels generalizing s with
  | nil =>
    cases h
    exact .refl here _
  | cons level levels ih =>
    rw [ensureAll_cons] at h
    obtain ⟨_, s₁, hone, h⟩ := bind_eq_ok_iff.1 h
    exact (shaped_of_ensureDirectory hone).trans (ih h)

theorem ensureAll_error {e : ProvisionError} (h : ensureAll here levels s = .error e s') :
    ∃ done rest, levels = done ++ e.path :: rest ∧ Shaped here done s.files s'.files := by
  induction levels generalizing s with
  | nil => cases h
  | cons level levels ih =>
    rw [ensureAll_cons] at h
    rcases bind_eq_error_iff.1 h with h | ⟨_, s₁, hone, h⟩
    · obtain ⟨hfiles, rfl⟩ := ensureDirectory_error h
      exact ⟨[], levels, rfl, hfiles ▸ .refl here s.files⟩
    · obtain ⟨done, rest, rfl, hdone⟩ := ih h
      exact ⟨level :: done, rest, rfl, (shaped_of_ensureDirectory hone).trans hdone⟩

theorem ensureAll_of_directories
    (h : ∀ level ∈ levels, ∃ fixed, s.files.stat here level = .ok (.directory fixed)) :
    ensureAll here levels s = .ok () s := by
  induction levels with
  | nil => rfl
  | cons level levels ih =>
    obtain ⟨⟨fixed, hd⟩, hrest⟩ := List.forall_mem_cons.1 h
    rw [ensureAll_cons, run_bind_of_ok (ensureDirectory_of_directory hd)]
    exact ih hrest

/-! ## The levels of a tree -/

theorem Tree.provision_eq_ensureAll (here : Location) (t : Tree) :
    t.provision here = ensureAll here t.levels := rfl

namespace Installer

variable {i : Installer}

theorem shaped_of_provision (h : i.provision s = .ok u s') :
    Shaped i.here i.settings.tree.levels s.files s'.files :=
  ensureAll_ok (orFail_eq_ok_iff.1 h)

theorem shaped_of_provision_error {e : InstallError} (h : i.provision s = .error e s') :
    ∃ done, done ⊆ i.settings.tree.levels ∧ Shaped i.here done s.files s'.files := by
  obtain ⟨d, hp, -⟩ := orFail_eq_error_iff.1 h
  obtain ⟨done, rest, hlevels, hshaped⟩ := ensureAll_error hp
  exact ⟨done, hlevels ▸ List.subset_append_left .., hshaped⟩

theorem linkless_of_provision (hs : s.files.Linkless) (hp : i.provision s = .ok u s') :
    s'.files.Linkless :=
  (shaped_of_provision hp).linkless hs

theorem read_of_provision {content content' : Bytes} (h : i.provision s = .ok u s')
    (hr : s.files.read i.here q = .ok content) (hr' : s'.files.read i.here q = .ok content') :
    content' = content := by
  obtain ⟨x, hst⟩ := read_eq_ok_iff.1 hr
  obtain ⟨x', hst'⟩ := read_eq_ok_iff.1 hr'
  rcases (shaped_of_provision h).stands q _ hst with heq | heq
  · rw [hst'] at heq
    cases heq
    rfl
  · simp [hst'] at heq

end Installer

end ModuleInstall
