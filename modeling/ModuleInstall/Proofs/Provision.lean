import ModuleInstall.Proofs.Actions
import ModuleInstall.Proofs.Calls
import ModuleInstall.Proofs.Walk.Naming
import ModuleInstall.Tree.Provision

/-! # Bringing the tree into shape -/

namespace ModuleInstall

open FileSystem ModuleInstall.Action

namespace FileSystem

variable {fs fs' : FileSystem} {last : LastLink} {here : Location} {p : Path} {place : Place}
  {spot : Location}

/-- Whatever a link at this place leads to, it is no directory. -/
def Astray (fs : FileSystem) (spot : Location) : Prop :=
  ∀ n dir target, spot = n :: dir → fs.node? spot = some (.link target) → target ≠ [] →
    ∀ budget slash place,
      fs.Arrives .followed place budget slash (if (Route.ofBytes target).fromRoot then [] else dir)
        (Route.ofBytes target).steps → ¬ fs.IsDirectory place.location

/-- A directory has come to a place where no path led to one. -/
structure Levelled (spot : Location) (fs fs' : FileSystem) : Prop where
  was : ¬ fs.IsDirectory spot
  astray : fs.Astray spot
  now : fs'.node? spot = some (.directory false)
  others : ∀ l, l ≠ spot → fs'.node? l = fs.node? l

/-! ## What a walk finds after it -/

theorem stretch_of_levelled (hl : Levelled spot fs fs') {slash : Bool} {loc : Location}
    {steps : List Step} {r : Stretch} (hr : ∀ e, r ≠ .fails e)
    (h : fs.stretch .followed slash loc steps = r) :
    fs'.stretch .followed slash loc steps = r ∨
      (∃ place, fs'.stretch .followed slash loc steps = .ends place ∧ place.location = spot) ∨
      ∃ n dir target rest, r = .meets dir target rest ∧ rest ≠ [] ∧ spot = n :: dir ∧
        fs.node? spot = some (.link target) := by
  induction loc, steps using walk_induction with
  | nil loc => exact Or.inl h
  | here loc more ih => exact ih h
  | up loc more ih => exact ih h
  | last loc n =>
    by_cases hs : n :: loc = spot
    · by_cases hn : Name.maxLength < n.length
      · rw [stretch_last] at h
        simp only [LastLink.passesOver, Bool.false_eq_true, if_false, hn, if_true] at h
        exact absurd h.symm (hr _)
      · refine Or.inr (Or.inl ⟨.entry loc n slash, ?_, hs⟩)
        rw [stretch_last_of_not_link (by simp [hs, hl.now])]
        simp [hn]
    · rw [stretch_last, hl.others _ hs, ← stretch_last]
      exact Or.inl h
  | name loc n more he ih =>
    rw [stretch_name _ _ _ _ _ he] at h
    rw [stretch_name _ _ _ _ _ he]
    by_cases hn : Name.maxLength < n.length
    · simp only [hn, if_true] at h
      exact absurd h.symm (hr _)
    simp only [hn, if_false] at h ⊢
    by_cases hs : n :: loc = spot
    · -- Only a link could have been walked through here.
      rw [hs] at h
      rcases hx : fs.node? spot with _ | ⟨fixed | _ | target | _⟩ <;> simp only [hx] at h
      case some.directory => exact absurd ⟨fixed, hx⟩ hl.was
      case some.link => exact Or.inr (Or.inr ⟨n, loc, target, more, h.symm, he, hs.symm, rfl⟩)
      all_goals exact absurd h.symm (hr _)
    · rw [hl.others _ hs]
      rcases hx : fs.node? (n :: loc) with _ | ⟨_ | _ | _ | _⟩ <;> simp only [hx] at h
      case some.directory => exact ih h
      all_goals exact Or.inl h

theorem arrives_of_levelled (hl : Levelled spot fs fs') {budget : Nat} {slash : Bool}
    {loc : Location} {steps : List Step} (h : fs.Arrives .followed place budget slash loc steps) :
    ∃ place', fs'.Arrives .followed place' budget slash loc steps ∧
      (place' = place ∨ place'.location = spot) := by
  induction h with
  | ends hm =>
    rcases stretch_of_levelled hl (by simp) hm with hs | ⟨place', hs, hp⟩ | ⟨_, _, _, _, hs, _⟩
    · exact ⟨_, .ends hs, Or.inl rfl⟩
    · exact ⟨place', .ends hs, Or.inr hp⟩
    · simp at hs
  | @meets budget slash loc dir steps rest target hm hne hw ih =>
    rcases stretch_of_levelled hl (by simp) hm with hs | ⟨place', hs, hp⟩ | ⟨n, _, _, _, hs, hr, he, hx⟩
    · obtain ⟨place', hp, hor⟩ := ih
      exact ⟨place', .meets hs hne hp, hor⟩
    · exact ⟨place', .ends hs, Or.inr hp⟩
    · -- The target has to be a directory, and it is none.
      cases hs
      have hdir : fs.IsDirectory dir := isDirectory_parent (n := n) (he ▸ hx)
      obtain ⟨place', hp, hd⟩ := arrives_of_append hr (isDirectory_start _ hdir) hw false
      exact absurd hd (hl.astray n dir target he hx hne _ _ _ hp)

theorem stat_of_levelled (hl : Levelled spot fs fs') {node : Node}
    (h : fs.stat here p = .ok node) :
    fs'.stat here p = .ok node ∨ fs'.stat here p = .ok (.directory false) := by
  obtain ⟨place, hw, hn⟩ := stat_eq_ok_iff.1 h
  obtain ⟨route, hr, hw⟩ := walk_eq_ok_iff.1 hw
  obtain ⟨place', hp, hor⟩ := arrives_of_levelled hl hw
  have hw' := walk_eq_ok_iff.2 ⟨route, hr, hp⟩
  by_cases hs : place'.location = spot
  · refine Or.inr (stat_eq_ok_iff.2 ⟨place', hw', nodeAt_eq_ok_iff.2 ⟨hs ▸ hl.now, ?_⟩⟩)
    exact fun _ _ _ => rfl
  · obtain rfl : place' = place := hor.resolve_right hs
    obtain ⟨hx, hd⟩ := nodeAt_eq_ok_iff.1 hn
    refine Or.inl (stat_eq_ok_iff.2 ⟨place', hw', nodeAt_eq_ok_iff.2 ⟨?_, hd⟩⟩)
    rw [hl.others _ hs, hx]

/-! ## The entry that a path names -/

theorem stretch_kept_of_others (hs : ¬ fs.IsDirectory spot)
    (hothers : ∀ l, l ≠ spot → fs'.node? l = fs.node? l) {slash : Bool} {loc : Location}
    {steps : List Step} {r : Stretch} (hr : ∀ e, r ≠ .fails e)
    (h : fs.stretch .kept slash loc steps = r) :
    fs'.stretch .kept slash loc steps = r ∨
      ∃ n dir target rest, r = .meets dir target rest ∧ spot = n :: dir ∧
        fs.node? spot = some (.link target) := by
  induction loc, steps using walk_induction with
  | nil loc => exact Or.inl h
  | here loc more ih => exact ih h
  | up loc more ih => exact ih h
  | last loc n =>
    rw [stretch_kept_last] at h ⊢
    exact Or.inl h
  | name loc n more he ih =>
    rw [stretch_name _ _ _ _ _ he] at h
    rw [stretch_name _ _ _ _ _ he]
    by_cases hn : Name.maxLength < n.length
    · simp only [hn, if_true] at h
      exact absurd h.symm (hr _)
    simp only [hn, if_false] at h ⊢
    by_cases hspot : n :: loc = spot
    · rw [hspot] at h
      rcases hx : fs.node? spot with _ | ⟨fixed | _ | target | _⟩ <;> simp only [hx] at h
      case some.directory => exact absurd ⟨fixed, hx⟩ hs
      case some.link => exact Or.inr ⟨n, loc, target, more, h.symm, hspot.symm, rfl⟩
      all_goals exact absurd h.symm (hr _)
    · rw [hothers _ hspot]
      rcases hx : fs.node? (n :: loc) with _ | ⟨_ | _ | _ | _⟩ <;> simp only [hx] at h
      case some.directory => exact ih h
      all_goals exact Or.inl h

/-- Whatever comes to a place through which no path leads to a directory, each path names the entry
that it did. -/
theorem walk_kept_of_astray (hs : ¬ fs.IsDirectory spot) (ha : fs.Astray spot)
    (hothers : ∀ l, l ≠ spot → fs'.node? l = fs.node? l)
    (h : fs.walk .kept here p = .ok place) : fs'.walk .kept here p = .ok place := by
  have harrives : ∀ budget slash loc steps, fs.Arrives .kept place budget slash loc steps →
      fs'.Arrives .kept place budget slash loc steps := by
    intro budget slash loc steps h
    induction h with
    | ends hm =>
      rcases stretch_kept_of_others hs hothers (by simp) hm with hm' | ⟨_, _, _, _, hm', -⟩
      · exact .ends hm'
      · cases hm'
    | @meets budget slash loc dir steps rest target hm hne hw ih =>
      rcases stretch_kept_of_others hs hothers (by simp) hm with hm' | ⟨n, _, _, _, hm', he, hx⟩
      · exact .meets hm' hne ih
      · -- Something comes after the target, so that it has to be a directory, and it is none.
        cases hm'
        have hrest := (stretch_kept_of_meets hm .kept).2
        have hstart := isDirectory_start (Route.ofBytes target) (isDirectory_of_stretch_meets hm)
        obtain ⟨place', hp, hd⟩ := arrives_of_append hrest hstart hw false
        exact absurd hd (ha n dir target he hx hne _ _ _ hp)
  obtain ⟨route, hr, hw⟩ := walk_eq_ok_iff.1 h
  exact walk_eq_ok_iff.2 ⟨route, hr, harrives _ _ _ _ hw⟩

theorem Names.of_levelled {loc : Location} (hl : Levelled spot fs fs') (h : fs.Names here p loc) :
    fs'.Names here p loc := by
  obtain ⟨dir, n, slash, hw, he⟩ := h
  exact ⟨dir, n, slash, walk_kept_of_astray hl.was hl.astray hl.others hw, he⟩

/-! ## Where a path leads astray -/

theorem stretch_followed_of_kept {slash s : Bool} {loc dir : Location} {n : Name} {target : Bytes}
    {steps : List Step} (h : fs.stretch .kept slash loc steps = .ends (.entry dir n s))
    (hx : fs.node? (n :: dir) = some (.link target)) :
    fs.stretch .followed slash loc steps = .meets dir target [] := by
  induction loc, steps using walk_induction with
  | nil loc => simp [stretch] at h
  | here loc more ih => exact ih h
  | up loc more ih => exact ih h
  | last loc m =>
    rw [stretch_last] at h ⊢
    simp only [LastLink.passesOver, LastLink.follows, Bool.false_eq_true, if_false, if_true] at h ⊢
    split at h
    · simp at h
    rename_i hm
    have he : loc = dir ∧ m = n := by
      split at h <;> simp_all
    rw [if_neg hm, he.1, he.2, hx]
  | name loc m more hr ih =>
    rw [stretch_name _ _ _ _ _ hr] at h ⊢
    by_cases hm : Name.maxLength < m.length
    · simp [hm] at h
    simp only [hm, if_false] at h ⊢
    rcases hy : fs.node? (m :: loc) with _ | ⟨_ | _ | _ | _⟩ <;> simp only [hy] at h
    case some.directory fixed => exact ih h
    all_goals simp at h

theorem walkFrom_followed_of_kept {budget : Nat} {slash s : Bool} {loc dir : Location} {n : Name}
    {target : Bytes} {steps : List Step}
    (h : fs.Arrives .kept (.entry dir n s) budget slash loc steps)
    (hx : fs.node? (n :: dir) = some (.link target)) (hne : target ≠ []) :
    fs.walkFrom .followed budget slash loc steps = .error .tooManyLinks ∨
      ∃ left slash', fs.walkFrom .followed budget slash loc steps =
        fs.walkFrom .followed left slash' (if (Route.ofBytes target).fromRoot then [] else dir)
          (Route.ofBytes target).steps := by
  induction h with
  | @ends budget slash loc steps hm =>
    have hs := stretch_followed_of_kept hm hx
    cases budget with
    | zero => exact Or.inl (walkFrom_zero hs)
    | succ left =>
      refine Or.inr ⟨left, slash || (Route.ofBytes target).slash, ?_⟩
      rw [walkFrom_of_meets hs, if_neg hne, if_pos rfl, List.append_nil]
  | meets hm hne' _ ih =>
    have hs := (stretch_kept_of_meets hm .followed).1
    rw [walkFrom_of_meets hs, if_neg hne']
    exact ih

theorem astray_of_stat {dir : Location} {n : Name} {s : Bool}
    (hw : fs.walk .kept here p = .ok (.entry dir n s))
    (hdir : ∀ fixed, fs.stat here p ≠ .ok (.directory fixed))
    (hlinks : fs.stat here p ≠ .error (.code .tooManyLinks)) : fs.Astray (n :: dir) := by
  intro n' dir' target he hx hne budget slash place hp hd
  cases he
  obtain ⟨route, hr, hw⟩ := walk_eq_ok_iff.1 hw
  have hfail : ∀ place, fs.Arrives .followed place maxLinks route.slash
      (if route.fromRoot then [] else here) route.steps → ¬ fs.IsDirectory place.location := by
    rintro place hp ⟨fixed, hd⟩
    refine hdir fixed (stat_eq_ok_iff.2 ⟨place, walk_eq_ok_iff.2 ⟨route, hr, hp⟩, ?_⟩)
    exact nodeAt_eq_ok_iff.2 ⟨hd, fun _ _ _ => rfl⟩
  have hnot : fs.walkFrom .followed maxLinks route.slash (if route.fromRoot then [] else here)
      route.steps ≠ .error .tooManyLinks := by
    intro hmany
    refine hlinks ?_
    simp [stat, find, walk_of_route hr, hmany, Except.map]
  obtain ⟨left, slash', heq⟩ := (walkFrom_followed_of_kept hw hx hne).resolve_left hnot
  obtain ⟨place', hp', hloc⟩ := arrives_of_slash hp slash'
  have hp'' := arrives_iff.1 hp'
  -- Both walks of the target end alike, unless one of them runs out of links.
  have hsame : fs.walkFrom .followed left slash'
      (if (Route.ofBytes target).fromRoot then [] else dir) (Route.ofBytes target).steps =
        .ok place' := by
    rcases Nat.le_total budget left with hle | hle
    · rcases walkFrom_of_more_links fs .followed slash'
        (if (Route.ofBytes target).fromRoot then [] else dir) (Route.ofBytes target).steps hle with h | h
      · simp [h] at hp''
      · rw [h, hp'']
    · rcases walkFrom_of_more_links fs .followed slash'
        (if (Route.ofBytes target).fromRoot then [] else dir) (Route.ofBytes target).steps hle with h | h
      · exact absurd (heq.trans h) hnot
      · rw [← h, hp'']
  exact hfail place' (arrives_iff.2 (heq.trans hsame)) (hloc ▸ hd)

end FileSystem

/-! ## One level -/

section Level

variable {here : Location} {p : Path} {s s' : Session} {u : Unit}

theorem clearTheWay_ok (h : clearTheWay here p s = .ok u s') :
    s.files.remove here p = .ok s'.files := by
  unfold clearTheWay at h
  rw [run_bind_of_ok (run_print _ _), change_eq_ok_iff] at h
  obtain ⟨files, hr, rfl⟩ := h
  exact hr

theorem makeLevel_ok (h : makeLevel here p s = .ok u s') :
    s.files.makeDirectory here p = .ok s'.files := by
  unfold makeLevel at h
  rw [run_bind_of_ok (run_print _ _), change_eq_ok_iff] at h
  obtain ⟨files, hr, rfl⟩ := h
  exact hr

theorem clearTheWay_of_remove {fs : FileSystem} (h : s.files.remove here p = .ok fs) :
    ∃ s', clearTheWay here p s = .ok () s' ∧ s'.files = fs := by
  unfold clearTheWay
  rw [run_bind_of_ok (run_print _ _)]
  exact ⟨_, change_eq_ok_iff.2 ⟨fs, h, rfl⟩, rfl⟩

theorem makeLevel_of_makeDirectory {fs : FileSystem}
    (h : s.files.makeDirectory here p = .ok fs) :
    ∃ s', makeLevel here p s = .ok () s' ∧ s'.files = fs := by
  unfold makeLevel
  rw [run_bind_of_ok (run_print _ _)]
  exact ⟨_, change_eq_ok_iff.2 ⟨fs, h, rfl⟩, rfl⟩

/-- Once the entry of a path has been removed, a directory can be put in its place. -/
structure Cleared (here : Location) (p : Path) (dir : Location) (n : Name)
    (fs fs₁ : FileSystem) : Prop where
  was : ¬ fs.IsDirectory (n :: dir)
  astray : fs.Astray (n :: dir)
  named : fs.walk .kept here p = .ok (.entry dir n false)
  stays : fs₁.walk .kept here p = .ok (.entry dir n false)
  admits : fs₁.Admits dir n
  free : fs₁.isFixed dir = false
  others : ∀ l, l ≠ n :: dir → fs₁.node? l = fs.node? l

theorem cleared_of_remove {fs fs₁ : FileSystem}
    (hdir : ∀ fixed, fs.stat here p ≠ .ok (.directory fixed))
    (hlinks : fs.stat here p ≠ .error (.code .tooManyLinks)) (h : fs.remove here p = .ok fs₁) :
    ∃ dir n, Cleared here p dir n fs fs₁ := by
  obtain ⟨dir, n, node, hw, hfixed, hx, hd, rfl⟩ := remove_spec h
  have hlost := lost_erase hx hd
  have hwas : ¬ fs.IsDirectory (n :: dir) := by
    rintro ⟨fixed, hf⟩
    rw [hx] at hf
    cases hf
    cases hd
  have hastray := astray_of_stat hw hdir hlinks
  have hup : (fs.erase (n :: dir)).node? dir = fs.node? dir :=
    hlost.others dir (List.cons_ne_self n dir).symm
  have hdirectory : (fs.erase (n :: dir)).IsDirectory dir := by
    rw [IsDirectory, hup]
    exact isDirectory_parent hx
  refine ⟨dir, n, hwas, hastray, hw, walk_kept_of_astray hwas hastray hlost.others hw, ?_, ?_,
    hlost.others⟩
  · exact ⟨proper_of_node? hx, hasDirectory_iff.2 hdirectory, hlost.gone⟩
  · rw [isFixed, hup]
    exact hfixed

theorem Cleared.makeDirectory {fs fs₁ : FileSystem} {dir : Location} {n : Name}
    (h : Cleared here p dir n fs fs₁) :
    fs₁.makeDirectory here p = .ok (fs₁.add dir n (.directory false)) :=
  makeDirectory_of_admits h.stays h.admits h.free

theorem levelled_of_clear_make {fs fs₁ fs' : FileSystem}
    (hdir : ∀ fixed, fs.stat here p ≠ .ok (.directory fixed))
    (hlinks : fs.stat here p ≠ .error (.code .tooManyLinks)) (hclear : fs.remove here p = .ok fs₁)
    (hmake : fs₁.makeDirectory here p = .ok fs') :
    ∃ spot, fs.Names here p spot ∧ Levelled spot fs fs' := by
  obtain ⟨dir, n, h⟩ := cleared_of_remove hdir hlinks hclear
  rw [h.makeDirectory] at hmake
  cases hmake
  refine ⟨n :: dir, ⟨dir, n, false, h.named, rfl⟩, h.was, h.astray, ?_, fun l hl => ?_⟩
  · rw [node?_add _ h.admits, if_pos rfl]
  · rw [node?_add _ h.admits, if_neg hl, h.others l hl]

theorem levelled_of_make {fs fs' : FileSystem} (hmake : fs.makeDirectory here p = .ok fs') :
    ∃ spot, fs.Names here p spot ∧ Levelled spot fs fs' := by
  obtain ⟨dir, n, slash, hw, -, hnone, hnow, hothers⟩ := create_spec hmake
  refine ⟨n :: dir, ⟨dir, n, slash, hw, rfl⟩, ?_, ?_, hnow, hothers⟩
  · rintro ⟨fixed, hf⟩
    simp [hnone] at hf
  · intro n' dir' target he hx
    simp [hnone] at hx

theorem run_ensureDirectory (here : Location) (p : Path) (s : Session) :
    ensureDirectory here p s =
      match s.files.stat here p with
      | .ok (.directory _) => .ok () s
      | .ok _ => (do clearTheWay here p; makeLevel here p : Action ProvisionError Unit) s
      | .error (.code .noEntry) =>
        if (s.files.entryStat here p).toBool then
          (do clearTheWay here p; makeLevel here p : Action ProvisionError Unit) s
        else makeLevel here p s
      | .error e => .error (.create p e) s := by
  unfold ensureDirectory
  rw [run_bind_of_ok (run_ask _ _)]
  rcases s.files.stat here p with (errno | k | ⟨k, words⟩) | (fixed | _ | _ | _)
  case error.code =>
    cases errno
    case noEntry =>
      dsimp only
      rw [run_bind_of_ok (run_ask _ _)]
      by_cases he : (s.files.entryStat here p).toBool = true
      · simp only [he, if_true]
      · simp only [he]
        rfl
    all_goals rfl
  all_goals rfl

theorem ensureDirectory_of_directory {fixed : Bool}
    (h : s.files.stat here p = .ok (.directory fixed)) : ensureDirectory here p s = .ok () s := by
  rw [run_ensureDirectory, h]

theorem ensureDirectory_ok (h : ensureDirectory here p s = .ok u s') :
    s'.files = s.files ∧ (∃ fixed, s.files.stat here p = .ok (.directory fixed)) ∨
      ∃ spot, s.files.Names here p spot ∧ Levelled spot s.files s'.files := by
  rw [run_ensureDirectory] at h
  split at h
  · rename_i fixed hst
    cases h
    exact Or.inl ⟨rfl, fixed, hst⟩
  · rename_i node hnd hst
    obtain ⟨_, s₁, hclear, hmake⟩ := bind_eq_ok_iff.1 h
    refine Or.inr (levelled_of_clear_make ?_ ?_ (clearTheWay_ok hclear) (makeLevel_ok hmake))
    · intro fixed hf
      rw [hst] at hf
      cases hf
      exact hnd fixed rfl
    · simp [hst]
  · rename_i hst
    split at h
    · obtain ⟨_, s₁, hclear, hmake⟩ := bind_eq_ok_iff.1 h
      exact Or.inr (levelled_of_clear_make (by simp [hst]) (by simp [hst]) (clearTheWay_ok hclear)
        (makeLevel_ok hmake))
    · exact Or.inr (levelled_of_make (makeLevel_ok h))
  · simp at h

theorem isDirectory_of_ensureDirectory (h : ensureDirectory here p s = .ok u s') :
    ∃ fixed, s'.files.stat here p = .ok (.directory fixed) := by
  rcases ensureDirectory_ok h with ⟨hf, hd⟩ | ⟨spot, hnames, hl⟩
  · rwa [hf]
  · obtain ⟨dir, n, slash, hw, rfl⟩ := hnames.of_levelled hl
    have hw' : s'.files.walk .followed here p = .ok (.entry dir n slash) :=
      (walk_of_kept hw rfl).2 (by simp [hl.now])
    refine ⟨false, stat_eq_ok_iff.2 ⟨_, hw', nodeAt_eq_ok_iff.2 ⟨hl.now, ?_⟩⟩⟩
    exact fun _ _ _ => rfl

theorem stat_of_ensureDirectory {q : Path} {node : Node} (h : ensureDirectory here p s = .ok u s')
    (hst : s.files.stat here q = .ok node) :
    s'.files.stat here q = .ok node ∨ s'.files.stat here q = .ok (.directory false) := by
  rcases ensureDirectory_ok h with ⟨hf, -⟩ | ⟨spot, -, hl⟩
  · rw [hf]
    exact Or.inl hst
  · exact stat_of_levelled hl hst

end Level

end ModuleInstall
