import ModuleInstall.Proofs.Walk.Trail

/-! # Walks in two parts -/

namespace ModuleInstall.FileSystem

variable {fs : FileSystem} {last : LastLink} {slash slash' : Bool} {loc : Location}
  {steps rest : List Step} {budget : Nat} {place : Place}

/-! ## Directories on the way -/

theorem isDirectory_parent {dir : Location} {n : Name} {node : Node}
    (h : fs.node? (n :: dir) = some node) : fs.IsDirectory dir :=
  fs.isDirectory_of_below h (List.suffix_cons n dir) (by simp)

theorem isDirectory_tail (h : fs.IsDirectory loc) : fs.IsDirectory loc.tail := by
  cases loc with
  | nil => exact h
  | cons n dir =>
    obtain ⟨fixed, hn⟩ := h
    exact isDirectory_parent hn

theorem isDirectory_of_stretch_ends {d : Location} (hloc : fs.IsDirectory loc)
    (h : fs.stretch last slash loc steps = .ends (.directory d)) : fs.IsDirectory d := by
  induction loc, steps using walk_induction with
  | nil loc =>
    cases h
    exact hloc
  | here loc more ih => exact ih hloc h
  | up loc more ih => exact ih (isDirectory_tail hloc) h
  | last loc n =>
    rw [stretch_last] at h
    repeat' split at h
    all_goals simp at h
  | name loc n more hr ih =>
    rw [stretch_name _ _ _ _ _ hr] at h
    split at h
    · simp at h
    rcases hx : fs.node? (n :: loc) with _ | ⟨fixed | _ | _ | _⟩ <;> simp only [hx] at h
    case some.directory => exact ih ⟨fixed, hx⟩ h
    all_goals simp at h

theorem isDirectory_of_stretch_meets {dir : Location} {target : Bytes} {more : List Step}
    (h : fs.stretch last slash loc steps = .meets dir target more) : fs.IsDirectory dir := by
  induction loc, steps using walk_induction with
  | nil loc => simp [stretch] at h
  | here loc tail ih => exact ih h
  | up loc tail ih => exact ih h
  | last loc n =>
    rw [stretch_last] at h
    repeat' split at h
    all_goals cases h
    exact isDirectory_parent ‹_›
  | name loc n tail hr ih =>
    rw [stretch_name _ _ _ _ _ hr] at h
    split at h
    · simp at h
    rcases hx : fs.node? (n :: loc) with _ | ⟨_ | _ | _ | _⟩ <;> simp only [hx] at h
    case some.directory fixed => exact ih h
    case some.link t =>
      cases h
      exact isDirectory_parent hx
    all_goals simp at h

theorem isDirectory_start {dir : Location} (route : Route) (h : fs.IsDirectory dir) :
    fs.IsDirectory (if route.fromRoot then [] else dir) := by
  split
  · exact ⟨false, rfl⟩
  · exact h

/-! ## More steps -/

/-- What the steps after a place come to. -/
def stretchOn (fs : FileSystem) (last : LastLink) (slash : Bool) (place : Place)
    (rest : List Step) : Stretch :=
  match fs.node? place.location, place with
  | _, .directory d => fs.stretch last slash d rest
  | some (.directory _), .entry dir n _ => fs.stretch last slash (n :: dir) rest
  | some _, .entry _ _ _ => .fails .notDirectory
  | none, .entry _ _ _ => .fails .noEntry

theorem stretch_append (slash : Bool) (hr : rest ≠ []) :
    fs.stretch last slash' loc (steps ++ rest) =
      match fs.stretch .followed slash loc steps with
      | .ends place => fs.stretchOn last slash' place rest
      | .meets dir target more => .meets dir target (more ++ rest)
      | .fails e => .fails e := by
  induction loc, steps using walk_induction with
  | nil loc => simp [stretch, stretchOn]
  | here loc more ih => exact ih
  | up loc more ih => exact ih
  | last loc n =>
    rw [List.cons_append, stretch_name _ _ _ _ _ (by simp [hr])]
    simp only [stretch_last, LastLink.passesOver, LastLink.follows, Bool.false_eq_true, if_false,
      if_true, List.nil_append]
    by_cases hn : Name.maxLength < n.length
    · simp [hn]
    simp only [hn, if_false]
    rcases hx : fs.node? (n :: loc) with _ | ⟨_ | _ | _ | _⟩ <;>
      simp [stretchOn, Place.location, hx]
  | name loc n more he ih =>
    rw [List.cons_append, stretch_name _ _ _ _ _ (by simp [hr]), stretch_name _ _ _ _ _ he]
    by_cases hn : Name.maxLength < n.length
    · simp [hn]
    simp only [hn, if_false]
    rcases fs.node? (n :: loc) with _ | ⟨_ | _ | _ | _⟩
    case some.directory fixed => exact ih
    all_goals rfl

theorem stretchOn_of_directory (h : fs.IsDirectory place.location) :
    fs.stretchOn last slash place rest = fs.stretch last slash place.location rest := by
  obtain ⟨fixed, h⟩ := h
  cases place with
  | directory d => simp [stretchOn, Place.location]
  | entry dir n s =>
    simp only [Place.location] at h
    simp only [stretchOn, Place.location, h]

theorem isDirectory_of_stretchOn {r : Stretch} (hr : ∀ e, r ≠ .fails e)
    (hd : ∀ d, place = .directory d → fs.IsDirectory d)
    (h : fs.stretchOn last slash place rest = r) : fs.IsDirectory place.location := by
  cases place with
  | directory d => exact hd d rfl
  | entry dir n s =>
    simp only [stretchOn, Place.location] at h ⊢
    rcases hx : fs.node? (n :: dir) with _ | ⟨fixed | _ | _ | _⟩ <;> simp only [hx] at h
    case some.directory => exact ⟨fixed, hx⟩
    all_goals exact absurd h.symm (hr _)

theorem arrives_of_append (hr : rest ≠ []) (hloc : fs.IsDirectory loc)
    (h : fs.Arrives last place budget slash' loc (steps ++ rest)) (slash : Bool) :
    ∃ place', fs.Arrives .followed place' budget slash loc steps ∧
      fs.IsDirectory place'.location := by
  generalize hfull : steps ++ rest = full at h
  induction h generalizing steps slash with
  | @ends budget slash' loc full hm =>
    rw [← hfull, stretch_append slash hr] at hm
    cases hs : fs.stretch .followed slash loc steps with
    | ends place' =>
      rw [hs] at hm
      refine ⟨place', .ends hs, isDirectory_of_stretchOn (by simp) ?_ hm⟩
      exact fun d hd => isDirectory_of_stretch_ends hloc (hd ▸ hs)
    | meets dir target more => simp [hs] at hm
    | fails e => simp [hs] at hm
  | @meets budget slash' loc dir full more target hm hne _ ih =>
    rw [← hfull, stretch_append slash hr] at hm
    cases hs : fs.stretch .followed slash loc steps with
    | ends place' =>
      rw [hs] at hm
      refine ⟨place', .ends hs, isDirectory_of_stretchOn (by simp) ?_ hm⟩
      exact fun d hd => isDirectory_of_stretch_ends hloc (hd ▸ hs)
    | meets dir' target' more' =>
      simp only [hs, Stretch.meets.injEq] at hm
      obtain ⟨rfl, rfl, rfl⟩ := hm
      obtain ⟨place', hp, hd⟩ := ih (isDirectory_start _ (isDirectory_of_stretch_meets hs))
        (if more' = [] then slash || (Route.ofBytes target').slash else slash)
        (List.append_assoc _ _ _)
      exact ⟨place', .meets hs hne hp, hd⟩
    | fails e => simp [hs] at hm

theorem arrives_append {place' : Place} (hr : rest ≠ [])
    (h : fs.Arrives .followed place budget slash loc steps) (hd : fs.IsDirectory place.location)
    (hend : fs.stretch last slash' place.location rest = .ends place') :
    fs.Arrives last place' budget slash' loc (steps ++ rest) := by
  induction h with
  | @ends budget slash loc steps hm =>
    refine .ends ?_
    rw [stretch_append slash hr, hm]
    exact (stretchOn_of_directory hd).trans hend
  | @meets budget slash loc dir steps more target hm hne _ ih =>
    have hm' : fs.stretch last slash' loc (steps ++ rest) = .meets dir target (more ++ rest) := by
      rw [stretch_append slash hr, hm]
    refine .meets hm' hne ?_
    rw [if_neg (by simp [hr]), ← List.append_assoc]
    exact ih

/-! ## More links, and a slash more or less -/

theorem walkFrom_of_more_links (fs : FileSystem) (last : LastLink) (slash : Bool) (loc : Location)
    (steps : List Step) {budget more : Nat} (hle : budget ≤ more) :
    fs.walkFrom last budget slash loc steps = .error .tooManyLinks ∨
      fs.walkFrom last more slash loc steps = fs.walkFrom last budget slash loc steps := by
  induction budget generalizing more slash loc steps with
  | zero =>
    cases hm : fs.stretch last slash loc steps with
    | ends place => exact Or.inr ((walkFrom_of_ends hm).trans (walkFrom_of_ends hm).symm)
    | fails e => exact Or.inr ((walkFrom_of_fails hm).trans (walkFrom_of_fails hm).symm)
    | meets dir target rest => exact Or.inl (walkFrom_zero hm)
  | succ budget ih =>
    obtain ⟨more, rfl⟩ : ∃ k, more = k + 1 := ⟨more - 1, by omega⟩
    cases hm : fs.stretch last slash loc steps with
    | ends place => exact Or.inr ((walkFrom_of_ends hm).trans (walkFrom_of_ends hm).symm)
    | fails e => exact Or.inr ((walkFrom_of_fails hm).trans (walkFrom_of_fails hm).symm)
    | meets dir target rest =>
      rw [walkFrom_of_meets hm, walkFrom_of_meets hm]
      split
      · exact Or.inr rfl
      · exact ih _ _ _ (by omega)

theorem stretch_followed_slash (fs : FileSystem) (loc : Location) (steps : List Step)
    (slash slash' : Bool) :
    fs.stretch .followed slash' loc steps =
      match fs.stretch .followed slash loc steps with
      | .ends (.entry dir n _) => .ends (.entry dir n slash')
      | other => other := by
  induction loc, steps using walk_induction with
  | nil loc => rfl
  | here loc more ih => exact ih
  | up loc more ih => exact ih
  | last loc n =>
    simp only [stretch_last, LastLink.passesOver, LastLink.follows, Bool.false_eq_true, if_false,
      if_true]
    by_cases hn : Name.maxLength < n.length
    · simp [hn]
    simp only [hn, if_false]
    rcases fs.node? (n :: loc) with _ | ⟨_ | _ | _ | _⟩ <;> rfl
  | name loc n more hr ih =>
    simp only [stretch_name _ _ _ _ _ hr]
    by_cases hn : Name.maxLength < n.length
    · simp [hn]
    simp only [hn, if_false]
    rcases fs.node? (n :: loc) with _ | ⟨_ | _ | _ | _⟩
    case some.directory fixed => exact ih
    all_goals rfl

theorem arrives_of_slash (h : fs.Arrives .followed place budget slash loc steps) (slash' : Bool) :
    ∃ place', fs.Arrives .followed place' budget slash' loc steps ∧
      place'.location = place.location := by
  induction h generalizing slash' with
  | @ends budget slash loc steps hm =>
    have hs := stretch_followed_slash fs loc steps slash slash'
    rw [hm] at hs
    cases place with
    | directory d => exact ⟨_, .ends hs, rfl⟩
    | entry dir n s => exact ⟨_, .ends hs, rfl⟩
  | @meets budget slash loc dir steps rest target hm hne _ ih =>
    have hs := stretch_followed_slash fs loc steps slash slash'
    rw [hm] at hs
    obtain ⟨place', hp, hl⟩ :=
      ih (if rest = [] then slash' || (Route.ofBytes target).slash else slash')
    exact ⟨place', .meets hs hne hp, hl⟩

end ModuleInstall.FileSystem
