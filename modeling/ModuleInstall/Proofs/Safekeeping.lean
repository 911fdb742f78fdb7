import ModuleInstall.Proofs.Copying
import ModuleInstall.Proofs.Establishing

/-! # What a failed installation leaves -/

namespace ModuleInstall

open FileSystem ModuleInstall.Action

variable {fs fs' : FileSystem} {here dir l : Location} {p q home : Path} {done : List Path}
  {n : Name} {node : Node} {content : Bytes}

/-! ## Levels that are brought into shape -/

/-- A level of the tree has come to the place of something that was no directory. -/
structure Tree.Displaced (t : Tree) (here l : Location) (node : Node) (fs' : FileSystem) :
    Prop where
  was : node.isDirectory = false
  level : ∃ level ∈ t.levels, fs'.Names here level l
  now : fs'.node? l = some (.directory false)

theorem Shaped.node? {t : Tree} (h : Shaped here done fs fs') (hdone : done ⊆ t.levels)
    (hx : fs.node? l = some node) : fs'.node? l = some node ∨ t.Displaced here l node fs' := by
  by_cases hc : fs'.node? l = fs.node? l
  · exact Or.inl (hc.trans hx)
  · obtain ⟨⟨level, hm, hnames⟩, hwas, hnow⟩ := h.changed l hc
    refine Or.inr ⟨?_, ⟨level, hdone hm, hnames⟩, hnow⟩
    cases node with
    | directory fixed => exact absurd ⟨fixed, hx⟩ hwas
    | file | link | fifo => rfl

theorem Shaped.node?_of_other_name (h : Shaped here done fs fs')
    (hdone : done ⊆ (Tree.under home).levels) (hn : n ∉ Tree.levelNames) :
    fs'.node? (n :: dir) = fs.node? (n :: dir) := by
  refine Decidable.byContradiction fun hc => hn ?_
  obtain ⟨⟨level, hm, hnames⟩, -⟩ := h.changed _ hc
  have hname : some n = level.fileName? := Tree.head?_of_names_level home (hdone hm) hnames
  have hmem : level.fileName? ∈ Tree.levelNames.map some :=
    Tree.fileNames_levels home ▸ List.mem_map_of_mem (hdone hm)
  simpa [← hname] using hmem

namespace FileSystem

theorem Names.of_write (h : fs.Names here p l) (hw : fs.write here q content = .ok fs') :
    fs'.Names here p l := by
  obtain ⟨dir, n, slash, hp, he⟩ := h
  exact ⟨dir, n, slash, walk_of_write hw hp, he⟩

theorem node?_of_write (hw : fs.write here q content = .ok fs') (hx : fs.node? l = some node) :
    fs'.node? l = some node ∨
      (∃ c x, node = .file c x) ∧ ∃ x, fs'.find .followed here q = .ok (l, .file content x) := by
  obtain ⟨d, m, x, hp, -, hwas, hnow, hothers⟩ := write_spec hw
  by_cases hs : l = m :: d
  · subst hs
    refine Or.inr ⟨?_, x, ?_⟩
    · rcases hwas with hnone | ⟨c, x, hfile⟩
      · rw [hnone] at hx
        cases hx
      · exact ⟨c, x, Option.some.inj (hx.symm.trans hfile)⟩
    · refine find_eq_ok_iff.2 ⟨_, walk_of_write hw hp, rfl, nodeAt_eq_ok_iff.2 ⟨hnow, ?_⟩⟩
      simp
  · exact Or.inl ((hothers l hs).trans hx)

/-- The path names a regular file of the given content, and not by way of a link at its end. -/
structure HasFile (fs : FileSystem) (here : Location) (p : Path) (dir : Location) (n : Name)
    (content : Bytes) : Prop where
  walk : fs.walk .kept here p = .ok (.entry dir n false)
  file : ∃ executable, fs.node? (n :: dir) = some (.file content executable)

namespace HasFile

theorem read (h : fs.HasFile here p dir n content) : fs.read here p = .ok content := by
  obtain ⟨x, hx⟩ := h.file
  have hw : fs.walk .followed here p = _ := (walk_of_kept h.walk (by rfl)).2 (by simp [hx])
  exact read_eq_ok_iff.2 ⟨x, stat_eq_ok_iff.2 ⟨_, hw, nodeAt_eq_ok_iff.2 ⟨hx, by simp⟩⟩⟩

theorem of_shaped (h : fs.HasFile here p dir n content) (hs : Shaped here done fs fs')
    (hdone : done ⊆ (Tree.under home).levels) (hn : n ∉ Tree.levelNames) :
    fs'.HasFile here p dir n content where
  walk := hs.walks p _ h.walk
  file := by
    rw [hs.node?_of_other_name hdone hn]
    exact h.file

theorem of_write {written : Bytes} (h : fs.HasFile here p dir n content)
    (hw : fs.write here q written = .ok fs') : fs'.HasFile here p dir n content ∨
      fs'.HasFile here p dir n written ∧
        ∃ x, fs'.find .followed here q = .ok (n :: dir, .file written x) := by
  obtain ⟨x, hx⟩ := h.file
  have hwalk := walk_of_write hw h.walk
  rcases node?_of_write hw hx with hx | ⟨-, y, hy⟩
  · exact Or.inl ⟨hwalk, x, hx⟩
  · obtain ⟨place, -, hplace, hnow⟩ := find_eq_ok_iff.1 hy
    exact Or.inr ⟨⟨hwalk, y, hplace ▸ (nodeAt_eq_ok_iff.1 hnow).1⟩, y, hy⟩

end HasFile

end FileSystem

theorem Tree.Displaced.of_write {t : Tree} (h : t.Displaced here l node fs)
    (hw : fs.write here q content = .ok fs') : t.Displaced here l node fs' where
  was := h.was
  level := by
    obtain ⟨level, hm, hnames⟩ := h.level
    exact ⟨level, hm, hnames.of_write hw⟩
  now := by
    rcases node?_of_write hw h.now with hnow | ⟨⟨c, x, hfile⟩, -⟩
    · exact hnow
    · cases hfile

/-! ## Where an installation fails -/

namespace Installer

variable {i : Installer} {source : Path} {artifact : Artifact} {s s' : Session} {e : InstallError}

end Installer

/-- A source, and a module of its name that is in the tree already. -/
def Sample.replaced : Session :=
  start [.file (path "w/A.java") [0x61, 0x62], .file (path "home/jil/lib/std/A.class") [0x6F]]

end ModuleInstall
