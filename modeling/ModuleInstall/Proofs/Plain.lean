import ModuleInstall.Proofs.Entries
import ModuleInstall.Proofs.Linkless

/-! # Plain file systems -/

namespace ModuleInstall.FileSystem

variable {fs fs' : FileSystem} {here dir : Location} {p : Path} {n : Name} {content : Bytes}

/-- There are no links and no pipes, and every directory lets its entries be changed. -/
def Plain (fs : FileSystem) : Prop :=
  ∀ l node, fs.node? l = some node → node = .directory false ∨ ∃ c x, node = .file c x

/-- The content of the file at a location. -/
def content? (fs : FileSystem) (l : Location) : Option Bytes :=
  match fs.node? l with
  | some (.file c _) => some c
  | _ => none

theorem content?_eq_some_iff {l : Location} {c : Bytes} :
    fs.content? l = some c ↔ ∃ x, fs.node? l = some (.file c x) := by
  unfold content?
  rcases fs.node? l with _ | ⟨_ | _ | _ | _⟩ <;> simp

theorem content?_of_node?_eq {l : Location} (h : fs'.node? l = fs.node? l) :
    fs'.content? l = fs.content? l := by
  rw [content?, content?, h]

theorem plain_of_nodes (h : (fs.nodes.all fun e =>
    match e.2 with
    | .directory false | .file _ _ => true
    | _ => false) = true) : fs.Plain := by
  intro l node hx
  cases l with
  | nil =>
    cases hx
    exact Or.inl rfl
  | cons n dir =>
    have := List.all_eq_true.1 h _ (mem_nodes_of_node? hx)
    rcases node with (_ | _) | _ | _ | _ <;> simp_all

namespace Plain

variable (h : fs.Plain)
include h

theorem linkless : fs.Linkless := by
  intro l target hx
  rcases h l _ hx with he | ⟨c, x, he⟩ <;> cases he

theorem isFixed_eq (l : Location) : fs.isFixed l = false := by
  unfold isFixed
  rw [beq_eq_false_iff_ne]
  intro hx
  rcases h l _ hx with he | ⟨c, x, he⟩ <;> cases he

theorem cases_node? (l : Location) (hd : ¬ fs.IsDirectory l) :
    fs.node? l = none ∨ ∃ c x, fs.node? l = some (.file c x) := by
  cases hx : fs.node? l with
  | none => exact Or.inl rfl
  | some node =>
    rcases h l _ hx with rfl | ⟨c, x, rfl⟩
    · exact absurd ⟨false, hx⟩ hd
    · exact Or.inr ⟨c, x, rfl⟩

end Plain

/-! ## One entry more or less -/

section Others

variable {spot : Location} (hothers : ∀ l, l ≠ spot → fs'.node? l = fs.node? l)
include hothers

theorem Plain.of_others (hp : fs.Plain)
    (h : ∀ node, fs'.node? spot = some node → node = .directory false ∨ ∃ c x, node = .file c x) :
    fs'.Plain := by
  intro l node hx
  by_cases hl : l = spot
  · exact h node (hl ▸ hx)
  · exact hp l node (hothers l hl ▸ hx)

end Others

/-- The second file system has a file of the given content at one location, where no directory was,
and is like the first one elsewhere. -/
structure Put (spot : Location) (content : Bytes) (fs fs' : FileSystem) : Prop where
  free : ¬ fs.IsDirectory spot
  now : ∃ x, fs'.node? spot = some (.file content x)
  others : ∀ l, l ≠ spot → fs'.node? l = fs.node? l

namespace Put

variable {spot : Location} (h : Put spot content fs fs')
include h

theorem content?_self : fs'.content? spot = some content :=
  content?_eq_some_iff.2 h.now

theorem content?_other {l : Location} (hl : l ≠ spot) : fs'.content? l = fs.content? l :=
  content?_of_node?_eq (h.others l hl)

theorem isDirectory_iff (l : Location) : fs'.IsDirectory l ↔ fs.IsDirectory l := by
  refine isDirectory_iff_of_others h.others h.free ?_ l
  rintro ⟨fixed, hf⟩
  obtain ⟨x, hx⟩ := h.now
  rw [hx] at hf
  cases hf

theorem same (hp : fs.Plain) : SameDirectories fs fs' := by
  obtain ⟨x, hx⟩ := h.now
  refine .of_others hp.linkless h.others h.free fun node hn => ⟨content, x, ?_⟩
  simpa [hx] using hn.symm

theorem plain (hp : fs.Plain) : fs'.Plain := by
  refine hp.of_others h.others fun node hx => ?_
  obtain ⟨x, hx'⟩ := h.now
  rw [hx'] at hx
  cases hx
  exact Or.inr ⟨content, x, rfl⟩

end Put

namespace Lost

variable {spot : Location} (h : Lost spot fs fs')
include h

theorem content?_self : fs'.content? spot = none := by
  rw [content?, h.gone]

theorem content?_other {l : Location} (hl : l ≠ spot) : fs'.content? l = fs.content? l :=
  content?_of_node?_eq (h.others l hl)

theorem isDirectory_iff (l : Location) : fs'.IsDirectory l ↔ fs.IsDirectory l := by
  refine isDirectory_iff_of_others h.others ?_ ?_ l <;> rintro ⟨fixed, hf⟩
  · obtain ⟨node, hx, hd⟩ := h.was
    rw [hx] at hf
    cases hf
    cases hd
  · rw [h.gone] at hf
    cases hf

theorem plain (hp : fs.Plain) : fs'.Plain := by
  refine hp.of_others h.others fun node hx => ?_
  rw [h.gone] at hx
  cases hx

end Lost

/-! ## Calls on an entry -/

theorem read_of_leads (hl : fs.Leads here p dir n) (hc : fs.content? (n :: dir) = some content) :
    fs.read here p = .ok content := by
  obtain ⟨x, hx⟩ := content?_eq_some_iff.1 hc
  refine read_eq_ok_iff.2 ⟨x, stat_eq_ok_iff.2 ⟨_, hl _, nodeAt_eq_ok_iff.2 ⟨hx, ?_⟩⟩⟩
  simp

theorem isFile_iff_of_leads (hl : fs.Leads here p dir n) :
    fs.isFile here p = (fs.content? (n :: dir)).isSome := by
  have hw := hl .followed
  unfold isFile stat find content?
  rw [hw]
  simp only [nodeAt, Place.location]
  rcases fs.node? (n :: dir) with _ | ⟨_ | _ | _ | _⟩ <;> rfl

theorem exists_content_of_isFile (h : fs.Linkless) (hd : fs.directoryAt here p = .ok dir)
    (hn : IsPiece n) (hf : fs.isFile here (p.join n) = true) :
    ∃ content, fs.Leads here (p.join n) dir n ∧ fs.content? (n :: dir) = some content := by
  have hleads : fs.Leads here (p.join n) dir n := by
    unfold isFile stat find at hf
    cases hw : fs.walk .followed here (p.join n) with
    | error e => simp [hw, Except.map] at hf
    | ok place => exact leads_of_walk_join h hd hn hw
  rw [isFile_iff_of_leads hleads, Option.isSome_iff_exists] at hf
  obtain ⟨content, hc⟩ := hf
  exact ⟨content, hleads, hc⟩

theorem write_of_leads_directory (hl : fs.Leads here p dir n) (hd : fs.IsDirectory (n :: dir)) :
    fs.write here p content = .error (.code .isDirectory) := by
  obtain ⟨fixed, hx⟩ := hd
  have hw := hl .followedUnlessSlash
  unfold write
  simp only [hw, hx]

theorem Plain.isOpen (h : fs.Plain) (hdir : fs.IsDirectory dir) (hn : n.Proper)
    (hfree : ¬ fs.IsDirectory (n :: dir)) : fs.Open dir n where
  proper := hn
  free := by
    obtain ⟨fixed, hd⟩ := hdir
    rcases h _ _ hd with he | ⟨c, x, he⟩
    · rw [hd, he]
    · cases he
  vacant := h.cases_node? _ hfree

theorem write_of_leads (h : fs.Plain) (hl : fs.Leads here p dir n) (hdir : fs.IsDirectory dir)
    (hn : n.Proper) (hfree : ¬ fs.IsDirectory (n :: dir)) :
    ∃ fs', fs.write here p content = .ok fs' ∧ Put (n :: dir) content fs fs' := by
  have ho := h.isOpen hdir hn hfree
  obtain ⟨fs', hw, hm⟩ := ho.write (hl _) content
  exact ⟨fs', hw, hfree, ho.exists_file hm, (Revision.make_only_iff.1 hm).2⟩

theorem remove_of_leads (h : fs.Plain) (hl : fs.Leads here p dir n)
    (hc : fs.content? (n :: dir) = some content) :
    ∃ fs', fs.remove here p = .ok fs' ∧ Lost (n :: dir) fs fs' := by
  obtain ⟨x, hx⟩ := content?_eq_some_iff.1 hc
  exact ⟨_, remove_of_not_directory (hl _) hx rfl (h.isFixed_eq dir), lost_erase hx rfl⟩

end ModuleInstall.FileSystem
