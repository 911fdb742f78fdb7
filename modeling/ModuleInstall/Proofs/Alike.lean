import ModuleInstall.Proofs.Plain

/-!
# Files that come and go

Two file systems are alike if they differ only in files that can be put where they are, and taken
away again.
-/

namespace ModuleInstall.FileSystem

variable {fs₀ fs fs' : FileSystem} {here dir loc : Location} {p q : Path} {n : Name}
  {last : LastLink} {place : Place} {content : Bytes} {kept : Location → Prop}

theorem proper_of_walk_join (h : fs.Linkless) (hd : fs.directoryAt here q = .ok loc)
    (hn : IsPiece n) (hw : fs.walk last here (q.join n) = .ok place) : n.Proper := by
  rw [walk_join_name h hd hn, entryBehind] at hw
  split at hw
  · cases hw
  rename_i route hroute
  split at hw
  · cases hw
  rename_i hlen
  obtain ⟨_, hwq, -, -⟩ := directoryAt_eq_ok_iff.1 hd
  obtain ⟨_, hr, -⟩ := walk_eq_ok_iff.1 hwq
  have hrest := Path.route_of_join (Path.route_eq_ok hr).1 hn.isRelative hroute
  exact ⟨hn.ne_nil, hn.ne_dot, hn.ne_up, hn.no_slash, Path.not_mem_of_route hrest,
    Nat.le_of_not_lt hlen⟩

/-! ## Alike -/

/-- The file systems differ in files only that can come and go, and in none of those that are
kept. -/
def Alike (kept : Location → Prop) (fs₀ fs : FileSystem) : Prop :=
  ∀ l, fs.node? l = fs₀.node? l ∨ ¬ kept l ∧ ∃ n dir, l = n :: dir ∧ fs₀.Open dir n ∧
    (fs.node? l = none ∨ ∃ c x, fs.node? l = some (.file c x))

namespace Alike

theorem refl (kept : Location → Prop) (fs : FileSystem) : Alike kept fs fs := fun _ => Or.inl rfl

variable (h : Alike kept fs₀ fs)
include h

theorem node?_of_kept {l : Location} (hl : kept l) : fs.node? l = fs₀.node? l := by
  rcases h l with hx | ⟨hk, -⟩
  · exact hx
  · exact absurd hl hk

theorem node?_of_not_open (hno : ¬ fs₀.Open dir n) :
    fs.node? (n :: dir) = fs₀.node? (n :: dir) := by
  rcases h (n :: dir) with hx | ⟨-, n', dir', he, ho, -⟩
  · exact hx
  · cases he
    exact absurd ho hno

theorem node?_directory_iff {l : Location} {fixed : Bool} :
    fs.node? l = some (.directory fixed) ↔ fs₀.node? l = some (.directory fixed) := by
  rcases h l with hx | ⟨-, n, dir, rfl, ho, hv⟩
  · rw [hx]
  · have hv₀ := ho.vacant
    constructor <;> intro hx
    · simp [hx] at hv
    · simp [hx] at hv₀

theorem same (h₀ : fs₀.Linkless) : SameDirectories fs₀ fs where
  linkless := h₀
  linkless' l target hx := by
    rcases h l with he | ⟨-, -, -, -, -, hv⟩
    · exact h₀ l target (he ▸ hx)
    · simp [hx] at hv
  isDirectory_iff l := exists_congr fun _ => h.node?_directory_iff

theorem isOpen_iff : fs.Open dir n ↔ fs₀.Open dir n := by
  constructor <;> rintro ⟨hn, hd, hv⟩
  · refine ⟨hn, h.node?_directory_iff.1 hd, ?_⟩
    rcases h (n :: dir) with hx | ⟨-, n', dir', he, ho, -⟩
    · rwa [← hx]
    · cases he
      exact ho.vacant
  · refine ⟨hn, h.node?_directory_iff.2 hd, ?_⟩
    rcases h (n :: dir) with hx | ⟨-, n', dir', -, -, hv'⟩
    · rwa [hx]
    · exact hv'

theorem walk_join (h₀ : fs₀.Linkless) (hd : fs₀.directoryAt here q = .ok dir) (hn : IsPiece n)
    (last : LastLink) : fs.walk last here (q.join n) = fs₀.walk last here (q.join n) := by
  rw [walk_join_name (h.same h₀).linkless' ((h.same h₀).directoryAt hd) hn, walk_join_name h₀ hd hn]

theorem isFile_join (h₀ : fs₀.Linkless) (hd : fs₀.directoryAt here q = .ok dir) (hn : IsPiece n)
    (hx : fs.node? (n :: dir) = fs₀.node? (n :: dir)) :
    fs.isFile here (q.join n) = fs₀.isFile here (q.join n) := by
  cases hw : fs₀.walk .followed here (q.join n) with
  | error e => simp [isFile, stat, find, h.walk_join h₀ hd hn, hw, Except.map]
  | ok place =>
    have hl := leads_of_walk_join h₀ hd hn hw
    rw [isFile_iff_of_leads hl, isFile_iff_of_leads ((h.same h₀).leads hl), content?_of_node?_eq hx]

theorem make {e : Edit} (hk : ¬ kept (n :: dir)) (ho : fs₀.Open dir n)
    (hm : (Revision.only (n :: dir) e).Make fs fs')
    (hv : fs'.node? (n :: dir) = none ∨ ∃ c x, fs'.node? (n :: dir) = some (.file c x)) :
    Alike kept fs₀ fs' := by
  intro l
  by_cases hl : l = n :: dir
  · rw [hl]
    exact Or.inr ⟨hk, n, dir, rfl, ho, hv⟩
  · rw [(Revision.make_only_iff.1 hm).2 l hl]
    exact h l

theorem congr (hx : ∀ l, fs'.node? l = fs.node? l) : Alike kept fs₀ fs' := by
  intro l
  rw [hx l]
  exact h l

end Alike

/-! ## Alike, and holding a file -/

/-- The file systems are alike, and the second has a file of the given content. -/
structure Holding (kept : Location → Prop) (fs₀ : FileSystem) (l : Location) (content : Bytes)
    (fs : FileSystem) : Prop where
  alike : Alike kept fs₀ fs
  content : fs.content? l = some content

theorem Alike.fill (h : Alike kept fs₀ fs) (hk : ¬ kept (n :: dir)) (ho : fs₀.Open dir n)
    (hm : (Revision.only (n :: dir) (.fill content)).Make fs fs') :
    Holding kept fs₀ (n :: dir) content fs' := by
  obtain ⟨x, hx⟩ := (h.isOpen_iff.2 ho).exists_file hm
  exact ⟨h.make hk ho hm (Or.inr ⟨_, _, hx⟩), content?_eq_some_iff.2 ⟨x, hx⟩⟩

theorem Holding.fill {l : Location} (h : Holding kept fs₀ l content fs) (ho : fs₀.Open dir n)
    (hk : n :: dir = l ∨ ¬ kept (n :: dir))
    (hm : (Revision.only (n :: dir) (.fill content)).Make fs fs') :
    Holding kept fs₀ l content fs' := by
  obtain ⟨hspot, hothers⟩ := Revision.make_only_iff.1 hm
  by_cases hl : l = n :: dir
  · subst hl
    obtain ⟨x, hx⟩ := content?_eq_some_iff.1 h.content
    have hsame : fs'.node? (n :: dir) = fs.node? (n :: dir) := by
      rw [hspot, hx, Edit.apply, Node.withContent]
    refine ⟨h.alike.congr fun l => ?_, (content?_of_node?_eq hsame).trans h.content⟩
    by_cases he : l = n :: dir
    · rw [he, hsame]
    · exact hothers l he
  · have hk := hk.resolve_left (Ne.symm hl)
    exact ⟨(h.alike.fill hk ho hm).alike, (content?_of_node?_eq (hothers l hl)).trans h.content⟩

theorem Alike.takeAway (h : Alike kept fs₀ fs) (hk : ¬ kept (n :: dir)) (ho : fs₀.Open dir n)
    (hm : (Revision.only (n :: dir) (.put none)).Make fs fs') : Alike kept fs₀ fs' :=
  h.make hk ho hm (Or.inl (Revision.make_only_iff.1 hm).1)

theorem write_alike (kept : Location → Prop) (h₀ : fs₀.Linkless)
    (hd : fs₀.directoryAt here q = .ok dir) (hn : IsPiece n) :
    (∃ e, ∀ fs content, Alike kept fs₀ fs → fs.write here (q.join n) content = .error e) ∨
      fs₀.Open dir n ∧ fs₀.Leads here (q.join n) dir n := by
  cases hw : fs₀.walk .followedUnlessSlash here (q.join n) with
  | error e =>
    refine Or.inl ⟨e, fun fs content h => ?_⟩
    unfold write
    rw [h.walk_join h₀ hd hn, hw]
  | ok place =>
    have hleads := leads_of_walk_join h₀ hd hn hw
    have hproper := proper_of_walk_join h₀ hd hn hw
    by_cases ho : fs₀.Open dir n
    · exact Or.inr ⟨ho, hleads⟩
    · obtain ⟨-, -, -, hdir⟩ := directoryAt_eq_ok_iff.1 hd
      refine Or.inl ⟨.code (obstacle (fs₀.node? (n :: dir))), fun fs content h => ?_⟩
      rw [← h.node?_of_not_open ho]
      have hs := h.same h₀
      exact write_of_not_open (hs.leads hleads _) ((hs.isDirectory_iff dir).2 hdir) hproper
        (mt h.isOpen_iff.1 ho) content

end ModuleInstall.FileSystem
