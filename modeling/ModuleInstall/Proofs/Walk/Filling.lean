import ModuleInstall.Proofs.Walk.Trail

/-! # Walks while a file system fills up -/

namespace ModuleInstall.FileSystem

variable {fs fs' : FileSystem} {last : LastLink} {slash : Bool} {loc : Location} {steps : List Step}
  {budget : Nat} {here : Location} {p : Path} {place : Place} {spot : Location}

/-- At one location the second file system has something else in place of nothing, of a file or of
a pipe, and no link. -/
structure Filled (spot : Location) (fs fs' : FileSystem) : Prop where
  noDirectory : ∀ fixed, fs.node? spot ≠ some (.directory fixed)
  noLink : ∀ target, fs.node? spot ≠ some (.link target)
  noNewLink : ∀ target, fs'.node? spot ≠ some (.link target)
  others : ∀ l, l ≠ spot → fs'.node? l = fs.node? l

theorem stretch_of_filled (hf : Filled spot fs fs') {r : Stretch} (hr : ∀ e, r ≠ .fails e)
    (h : fs.stretch last slash loc steps = r) :
    fs'.stretch last slash loc steps = r ∧
      fs'.stretchTrail last slash loc steps = fs.stretchTrail last slash loc steps := by
  induction loc, steps using walk_induction with
  | nil loc => exact ⟨h, rfl⟩
  | here loc rest ih => exact ih h
  | up loc rest ih => exact ih h
  | last loc n =>
    simp only [stretchTrail_last, and_true]
    by_cases hs : n :: loc = spot
    · subst hs
      -- At the end of a path only links differ from the rest.
      rw [stretch_last_of_not_link hf.noLink] at h
      rw [stretch_last_of_not_link hf.noNewLink, h]
    · rw [stretch_last, hf.others _ hs, ← stretch_last, h]
  | name loc n rest he ih =>
    simp only [stretch_name _ _ _ _ _ he] at h
    simp only [stretch_name _ _ _ _ _ he, stretchTrail_name _ _ _ _ _ he]
    by_cases hn : Name.maxLength < n.length
    · simp only [hn, if_true] at h
      exact absurd h.symm (hr _)
    simp only [hn, if_false] at h ⊢
    have hs : n :: loc ≠ spot := by
      intro hs
      rw [hs] at h
      rcases hx : fs.node? spot with _ | ⟨fixed | _ | target | _⟩ <;> simp only [hx] at h
      case some.directory => exact hf.noDirectory _ hx
      case some.link => exact hf.noLink _ hx
      all_goals exact hr _ h.symm
    rw [hf.others _ hs]
    rcases hx : fs.node? (n :: loc) with _ | ⟨_ | _ | _ | _⟩ <;> simp only [hx] at h
    case some.directory fixed =>
      obtain ⟨h₁, h₂⟩ := ih h
      exact ⟨h₁, by rw [h₂]⟩
    all_goals exact ⟨h, rfl⟩

theorem arrives_of_filled (hf : Filled spot fs fs')
    (h : fs.Arrives last place budget slash loc steps) :
    fs'.Arrives last place budget slash loc steps ∧
      fs'.trailFrom last budget slash loc steps = fs.trailFrom last budget slash loc steps := by
  induction h with
  | ends hm =>
    obtain ⟨hs, ht⟩ := stretch_of_filled hf (by simp) hm
    refine ⟨.ends hs, ?_⟩
    rw [trailFrom_of_ends hm, trailFrom_of_ends hs, ht]
  | meets hm hne _ ih =>
    obtain ⟨hs, ht⟩ := stretch_of_filled hf (by simp) hm
    refine ⟨.meets hs hne ih.1, ?_⟩
    rw [trailFrom_of_meets hm, trailFrom_of_meets hs, ht, ih.2]

/-- A walk that succeeds is not disturbed by what comes to another place or to its end. -/
theorem walk_of_filled (hf : Filled spot fs fs') (h : fs.walk last here p = .ok place) :
    fs'.walk last here p = .ok place ∧ fs'.trail last here p = fs.trail last here p := by
  obtain ⟨route, hr, hw⟩ := walk_eq_ok_iff.1 h
  obtain ⟨h₁, h₂⟩ := arrives_of_filled hf hw
  refine ⟨walk_eq_ok_iff.2 ⟨route, hr, h₁⟩, ?_⟩
  simp only [trail, hr, h₂]

/-! ## A link at the end -/

theorem stretch_kept_of_meets {dir : Location} {target : Bytes} {rest : List Step}
    (h : fs.stretch .kept slash loc steps = .meets dir target rest) (last : LastLink) :
    fs.stretch last slash loc steps = .meets dir target rest ∧ rest ≠ [] := by
  induction loc, steps using walk_induction with
  | nil loc => simp [stretch] at h
  | here loc more ih => exact ih h
  | up loc more ih => exact ih h
  | last loc n =>
    rw [stretch_last] at h
    simp only [LastLink.passesOver, LastLink.follows, Bool.false_eq_true, if_false] at h
    split at h
    · simp at h
    split at h <;> simp at h
  | name loc n more hr ih =>
    simp only [stretch_name _ _ _ _ _ hr] at h ⊢
    by_cases hn : Name.maxLength < n.length
    · simp [hn] at h
    simp only [hn, if_false] at h ⊢
    rcases hx : fs.node? (n :: loc) with _ | ⟨_ | _ | _ | _⟩ <;> simp only [hx] at h
    case some.directory fixed => exact ih h
    case some.link t =>
      cases h
      exact ⟨rfl, hr⟩
    all_goals simp at h

theorem stretch_kept_of_ends {dir : Location} {n : Name} {s : Bool}
    (h : fs.stretch .kept slash loc steps = .ends (.entry dir n s))
    (hp : last.passesOver s = false) :
    n :: dir ∈ fs.stretchTrail last slash loc steps ∧
      ((∀ target, fs.node? (n :: dir) ≠ some (.link target)) →
        fs.stretch last slash loc steps = .ends (.entry dir n s)) := by
  induction loc, steps using walk_induction with
  | nil loc => simp [stretch] at h
  | here loc more ih => exact ih h
  | up loc more ih => exact ih h
  | last loc m =>
    rw [stretch_last] at h
    simp only [LastLink.passesOver, LastLink.follows, Bool.false_eq_true, if_false] at h
    split at h
    · simp at h
    rename_i hm
    have he : loc = dir ∧ m = n ∧ slash = s := by
      split at h <;> simpa using h
    obtain ⟨rfl, rfl, rfl⟩ := he
    refine ⟨by simp [stretchTrail_last, hp, hm], fun hl => ?_⟩
    rw [stretch_last_of_not_link hl]
    simp [hm]
  | name loc m more hr ih =>
    simp only [stretch_name _ _ _ _ _ hr, stretchTrail_name _ _ _ _ _ hr] at h ⊢
    by_cases hm : Name.maxLength < m.length
    · simp [hm] at h
    simp only [hm, if_false] at h ⊢
    rcases hx : fs.node? (m :: loc) with _ | ⟨_ | _ | _ | _⟩ <;> simp only [hx] at h
    case some.directory fixed =>
      obtain ⟨h₁, h₂⟩ := ih h
      exact ⟨List.mem_cons_of_mem _ h₁, h₂⟩
    all_goals simp at h

theorem arrives_of_kept {dir : Location} {n : Name} {s : Bool}
    (h : fs.Arrives .kept (.entry dir n s) budget slash loc steps)
    (hp : last.passesOver s = false) :
    n :: dir ∈ fs.trailFrom last budget slash loc steps ∧
      ((∀ target, fs.node? (n :: dir) ≠ some (.link target)) →
        fs.Arrives last (.entry dir n s) budget slash loc steps) := by
  induction h with
  | ends hm =>
    obtain ⟨h₁, h₂⟩ := stretch_kept_of_ends hm hp
    exact ⟨stretchTrail_subset_trailFrom h₁, fun hl => .ends (h₂ hl)⟩
  | meets hm hne _ ih =>
    have hs := (stretch_kept_of_meets hm last).1
    rw [trailFrom_of_meets hs, if_neg hne]
    exact ⟨List.mem_append_right _ ih.1, fun hl => .meets hs hne (ih.2 hl)⟩

theorem walk_of_kept {dir : Location} {n : Name} {s : Bool}
    (h : fs.walk .kept here p = .ok (.entry dir n s)) (hp : last.passesOver s = false) :
    n :: dir ∈ fs.trail last here p ∧
      ((∀ target, fs.node? (n :: dir) ≠ some (.link target)) →
        fs.walk last here p = .ok (.entry dir n s)) := by
  obtain ⟨route, hr, hw⟩ := walk_eq_ok_iff.1 h
  obtain ⟨h₁, h₂⟩ := arrives_of_kept hw hp
  refine ⟨by simpa only [trail, hr] using h₁, fun hl => ?_⟩
  exact walk_eq_ok_iff.2 ⟨route, hr, h₂ hl⟩

theorem stretch_kept_of_followed :
    (∀ place, fs.stretch .followed slash loc steps = .ends place →
      fs.stretch .kept slash loc steps = .ends place) ∧
    (∀ dir target rest, fs.stretch .followed slash loc steps = .meets dir target rest →
      fs.stretch .kept slash loc steps = .meets dir target rest ∨
        rest = [] ∧ ∃ n, fs.stretch .kept slash loc steps = .ends (.entry dir n slash)) := by
  induction loc, steps using walk_induction with
  | nil loc => exact ⟨fun _ h => h, fun _ _ _ h => Or.inl h⟩
  | here loc more ih => exact ih
  | up loc more ih => exact ih
  | last loc n =>
    simp only [stretch_last, LastLink.passesOver, LastLink.follows, Bool.false_eq_true,
      if_false, if_true]
    by_cases hn : Name.maxLength < n.length
    · simp [hn]
    simp only [hn, if_false]
    rcases fs.node? (n :: loc) with _ | ⟨_ | _ | _ | _⟩
    case some.link t =>
      refine ⟨by simp, fun dir target rest h => ?_⟩
      cases h
      exact Or.inr ⟨rfl, n, rfl⟩
    all_goals simp
  | name loc n more hr ih =>
    simp only [stretch_name _ _ _ _ _ hr]
    by_cases hn : Name.maxLength < n.length
    · simp [hn]
    simp only [hn, if_false]
    rcases fs.node? (n :: loc) with _ | ⟨_ | _ | _ | _⟩
    case some.directory fixed => exact ih
    all_goals exact ⟨fun _ h => h, fun _ _ _ h => Or.inl h⟩

theorem arrives_kept_of_followed (h : fs.Arrives .followed place budget slash loc steps) :
    ∃ place', fs.Arrives .kept place' budget slash loc steps := by
  induction h with
  | ends hm => exact ⟨_, .ends (stretch_kept_of_followed.1 _ hm)⟩
  | meets hm hne _ ih =>
    rcases stretch_kept_of_followed.2 _ _ _ hm with hk | ⟨-, n, hk⟩
    · obtain ⟨place', hp⟩ := ih
      exact ⟨place', .meets hk hne hp⟩
    · exact ⟨_, .ends hk⟩

theorem walk_kept_of_followed (h : fs.walk .followed here p = .ok place) :
    ∃ place', fs.walk .kept here p = .ok place' := by
  obtain ⟨route, hr, hw⟩ := walk_eq_ok_iff.1 h
  obtain ⟨place', hk⟩ := arrives_kept_of_followed hw
  exact ⟨place', walk_eq_ok_iff.2 ⟨route, hr, hk⟩⟩

/-! ## A slash at the end -/

theorem stretch_slash {dir : Location} {n : Name} {s : Bool}
    (h : fs.stretch last slash loc steps = .ends (.entry dir n s)) : s = slash := by
  induction loc, steps using walk_induction with
  | nil loc => simp [stretch] at h
  | here loc more ih => exact ih h
  | up loc more ih => exact ih h
  | last loc m =>
    rw [stretch_last] at h
    repeat' split at h
    all_goals simp_all
  | name loc m more hr ih =>
    rw [stretch_name _ _ _ _ _ hr] at h
    repeat' split at h
    all_goals first | exact ih h | simp at h

theorem arrives_slash {dir : Location} {n : Name} {s : Bool}
    (h : fs.Arrives last (.entry dir n s) budget slash loc steps) (hs : slash = true) :
    s = true := by
  induction h with
  | ends hm => exact (stretch_slash hm).trans hs
  | meets _ _ _ ih => exact ih (by simp [hs])

theorem stretch_last_congr {last' : LastLink} (hp : last.passesOver slash = last'.passesOver slash)
    (hf : last.follows slash = last'.follows slash) :
    fs.stretch last slash loc steps = fs.stretch last' slash loc steps := by
  induction loc, steps using walk_induction with
  | nil loc => rfl
  | here loc more ih => exact ih
  | up loc more ih => exact ih
  | last loc n =>
    rw [stretch_last, stretch_last, hp, hf]
  | name loc n more hr ih =>
    rw [stretch_name _ _ _ _ _ hr, stretch_name _ _ _ _ _ hr]
    simp only [ih]

theorem arrives_of_unslashed {last' : LastLink} {dir : Location} {n : Name}
    (h : fs.Arrives last (.entry dir n false) budget slash loc steps)
    (hp : last.passesOver false = last'.passesOver false)
    (hf : last.follows false = last'.follows false) :
    fs.Arrives last' (.entry dir n false) budget slash loc steps := by
  have same : ∀ loc steps, fs.stretch last' false loc steps = fs.stretch last false loc steps :=
    fun _ _ => (stretch_last_congr hp hf).symm
  induction h with
  | ends hm =>
    cases stretch_slash hm
    exact .ends ((same _ _).trans hm)
  | @meets budget slash loc dir' steps rest target hm hne hw ih =>
    have hs : slash = false := by
      cases slash with
      | false => rfl
      | true => simpa using arrives_slash hw
    subst hs
    exact .meets ((same _ _).trans hm) hne ih

theorem walk_of_unslashed {last' : LastLink} {dir : Location} {n : Name}
    (h : fs.walk last here p = .ok (.entry dir n false))
    (hp : last.passesOver false = last'.passesOver false)
    (hf : last.follows false = last'.follows false) :
    fs.walk last' here p = .ok (.entry dir n false) := by
  obtain ⟨route, hr, hw⟩ := walk_eq_ok_iff.1 h
  exact walk_eq_ok_iff.2 ⟨route, hr, arrives_of_unslashed hw hp hf⟩

theorem walk_of_unlessSlash {dir : Location} {n : Name}
    (h : fs.walk .followedUnlessSlash here p = .ok (.entry dir n false)) :
    fs.walk .followed here p = .ok (.entry dir n false) :=
  walk_of_unslashed h rfl rfl

end ModuleInstall.FileSystem
