import ModuleInstall.FileSystem.Entry
import ModuleInstall.FileSystem.Query

/-!
# The entries on a walk

A walk looks at entries one by one, and its trail is the list of them. A change off the trail
leaves the walk as it is.
-/

namespace ModuleInstall.FileSystem

variable {fs fs' : FileSystem} {last : LastLink} {slash : Bool} {loc : Location} {steps : List Step}
  {budget : Nat} {here : Location} {p : Path} {place : Place}

/-! ## One step -/

/-- The steps of a walk, one after the other. The last name is a case of its own, for a walk may
treat it in its own way. -/
@[elab_as_elim]
theorem walk_induction {motive : Location → List Step → Prop} (nil : ∀ loc, motive loc [])
    (here : ∀ loc rest, motive loc rest → motive loc (.here :: rest))
    (up : ∀ loc rest, motive loc.tail rest → motive loc (.up :: rest))
    (last : ∀ loc n, motive loc [.name n])
    (name : ∀ loc n rest, rest ≠ [] → motive (n :: loc) rest → motive loc (.name n :: rest))
    (loc : Location) (steps : List Step) : motive loc steps := by
  induction steps generalizing loc with
  | nil => exact nil loc
  | cons step rest ih =>
    cases step with
    | here => exact here loc rest (ih loc)
    | up => exact up loc rest (ih loc.tail)
    | name n =>
      by_cases hr : rest = []
      · rw [hr]
        exact last loc n
      · exact name loc n rest hr (ih (n :: loc))

theorem stretch_last (fs : FileSystem) (last : LastLink) (slash : Bool) (loc : Location) (n : Name) :
    fs.stretch last slash loc [.name n] =
      if last.passesOver slash then .ends (.entry loc n slash)
      else if Name.maxLength < n.length then .fails .nameTooLong
      else
        match fs.node? (n :: loc) with
        | some (.link target) =>
          if last.follows slash then .meets loc target [] else .ends (.entry loc n slash)
        | _ => .ends (.entry loc n slash) := by
  rw [stretch.eq_def]
  simp only [List.isEmpty_nil, Bool.true_and]
  split
  · rfl
  split
  · rfl
  rcases fs.node? (n :: loc) with _ | ⟨_ | _ | _ | _⟩ <;> rfl

theorem stretch_last_of_not_link {n : Name} (h : ∀ target, fs.node? (n :: loc) ≠ some (.link target)) :
    fs.stretch last slash loc [.name n] =
      if !last.passesOver slash && decide (Name.maxLength < n.length) then .fails .nameTooLong
      else .ends (.entry loc n slash) := by
  rw [stretch_last]
  rcases hx : fs.node? (n :: loc) with _ | ⟨_ | _ | target | _⟩
  case some.link => exact absurd hx (h target)
  all_goals by_cases hp : last.passesOver slash <;> simp [hp]

theorem stretch_name (fs : FileSystem) (last : LastLink) (slash : Bool) (loc : Location) (n : Name)
    {rest : List Step} (h : rest ≠ []) :
    fs.stretch last slash loc (.name n :: rest) =
      if Name.maxLength < n.length then .fails .nameTooLong
      else
        match fs.node? (n :: loc) with
        | some (.directory _) => fs.stretch last slash (n :: loc) rest
        | some (.link target) => .meets loc target rest
        | some _ => .fails .notDirectory
        | none => .fails .noEntry := by
  obtain ⟨s, rest, rfl⟩ := List.exists_cons_of_ne_nil h
  rw [stretch.eq_def]
  simp only [List.isEmpty_cons, Bool.false_and, Bool.false_eq_true, if_false]
  split
  · rfl
  rcases fs.node? (n :: loc) with _ | ⟨_ | _ | _ | _⟩ <;> rfl

/-! ## The trail -/

/-- The entries that are looked at up to the next link. -/
def stretchTrail (fs : FileSystem) (last : LastLink) (slash : Bool) :
    Location → List Step → List Location
  | _, [] => []
  | loc, .here :: rest => stretchTrail fs last slash loc rest
  | loc, .up :: rest => stretchTrail fs last slash loc.tail rest
  | loc, .name n :: rest =>
    if rest.isEmpty && last.passesOver slash || Name.maxLength < n.length then []
    else
      (n :: loc) ::
        match fs.node? (n :: loc), rest with
        | some (.directory _), s :: rest => stretchTrail fs last slash (n :: loc) (s :: rest)
        | _, _ => []

/-- The entries that a walk looks at. -/
def trailFrom (fs : FileSystem) (last : LastLink) :
    (budget : Nat) → (slash : Bool) → Location → List Step → List Location
  | 0, slash, loc, steps => fs.stretchTrail last slash loc steps
  | budget + 1, slash, loc, steps =>
    fs.stretchTrail last slash loc steps ++
      match fs.stretch last slash loc steps with
      | .meets dir target rest =>
        if target = [] then []
        else
          let route := Route.ofBytes target
          trailFrom fs last budget (if rest = [] then slash || route.slash else slash)
            (if route.fromRoot then [] else dir) (route.steps ++ rest)
      | _ => []

/-- The entries on the way of a path, in the order in which they are looked at. -/
def trail (fs : FileSystem) (last : LastLink) (here : Location) (p : Path) : List Location :=
  match p.route with
  | .error _ => []
  | .ok route =>
    fs.trailFrom last maxLinks route.slash (if route.fromRoot then [] else here) route.steps

theorem stretchTrail_last (fs : FileSystem) (last : LastLink) (slash : Bool) (loc : Location)
    (n : Name) :
    fs.stretchTrail last slash loc [.name n] =
      if last.passesOver slash || Name.maxLength < n.length then [] else [n :: loc] := by
  rw [stretchTrail.eq_def]
  simp only [List.isEmpty_nil, Bool.true_and]
  split
  · rfl
  rcases fs.node? (n :: loc) with _ | ⟨_ | _ | _ | _⟩ <;> rfl

theorem stretchTrail_name (fs : FileSystem) (last : LastLink) (slash : Bool) (loc : Location)
    (n : Name) {rest : List Step} (h : rest ≠ []) :
    fs.stretchTrail last slash loc (.name n :: rest) =
      if Name.maxLength < n.length then []
      else
        (n :: loc) ::
          match fs.node? (n :: loc) with
          | some (.directory _) => fs.stretchTrail last slash (n :: loc) rest
          | _ => [] := by
  obtain ⟨s, rest, rfl⟩ := List.exists_cons_of_ne_nil h
  rw [stretchTrail.eq_def]
  simp only [List.isEmpty_cons, Bool.false_and, Bool.false_or, decide_eq_true_eq]
  split
  · rfl
  rcases fs.node? (n :: loc) with _ | ⟨_ | _ | _ | _⟩ <;> rfl

/-! ## One link -/

theorem walkFrom_of_ends (h : fs.stretch last slash loc steps = .ends place) :
    fs.walkFrom last budget slash loc steps = .ok place := by
  rw [walkFrom.eq_def]
  simp only [h]

theorem walkFrom_of_fails {e : Errno} (h : fs.stretch last slash loc steps = .fails e) :
    fs.walkFrom last budget slash loc steps = .error e := by
  rw [walkFrom.eq_def]
  simp only [h]

theorem walkFrom_zero {dir : Location} {target : Bytes} {rest : List Step}
    (h : fs.stretch last slash loc steps = .meets dir target rest) :
    fs.walkFrom last 0 slash loc steps = .error .tooManyLinks := by
  rw [walkFrom.eq_def]
  simp only [h]

theorem walkFrom_of_meets {dir : Location} {target : Bytes} {rest : List Step}
    (h : fs.stretch last slash loc steps = .meets dir target rest) :
    fs.walkFrom last (budget + 1) slash loc steps =
      if target = [] then .error .noEntry
      else
        fs.walkFrom last budget
          (if rest = [] then slash || (Route.ofBytes target).slash else slash)
          (if (Route.ofBytes target).fromRoot then [] else dir)
          ((Route.ofBytes target).steps ++ rest) := by
  rw [walkFrom.eq_def]
  simp only [h]

/-- A walk that succeeds, link by link. -/
inductive Arrives (fs : FileSystem) (last : LastLink) (place : Place) :
    Nat → Bool → Location → List Step → Prop
  | ends {budget : Nat} {slash : Bool} {loc : Location} {steps : List Step} :
      fs.stretch last slash loc steps = .ends place → Arrives fs last place budget slash loc steps
  | meets {budget : Nat} {slash : Bool} {loc dir : Location} {steps rest : List Step}
      {target : Bytes} :
      fs.stretch last slash loc steps = .meets dir target rest → target ≠ [] →
      Arrives fs last place budget
        (if rest = [] then slash || (Route.ofBytes target).slash else slash)
        (if (Route.ofBytes target).fromRoot then [] else dir)
        ((Route.ofBytes target).steps ++ rest) →
      Arrives fs last place (budget + 1) slash loc steps

theorem arrives_iff :
    fs.Arrives last place budget slash loc steps ↔
      fs.walkFrom last budget slash loc steps = .ok place := by
  constructor
  · intro h
    induction h with
    | ends hm => exact walkFrom_of_ends hm
    | meets hm ht _ ih => rw [walkFrom_of_meets hm, if_neg ht, ih]
  · intro h
    induction budget generalizing slash loc steps with
    | zero =>
      cases hm : fs.stretch last slash loc steps with
      | ends place' =>
        rw [walkFrom_of_ends hm] at h
        cases h
        exact .ends hm
      | fails e => simp [walkFrom_of_fails hm] at h
      | meets dir target rest => simp [walkFrom_zero hm] at h
    | succ budget ih =>
      cases hm : fs.stretch last slash loc steps with
      | ends place' =>
        rw [walkFrom_of_ends hm] at h
        cases h
        exact .ends hm
      | fails e => simp [walkFrom_of_fails hm] at h
      | meets dir target rest =>
        rw [walkFrom_of_meets hm] at h
        split at h
        · simp at h
        · exact .meets hm ‹_› (ih h)

theorem trailFrom_of_meets {dir : Location} {target : Bytes} {rest : List Step}
    (h : fs.stretch last slash loc steps = .meets dir target rest) :
    fs.trailFrom last (budget + 1) slash loc steps =
      fs.stretchTrail last slash loc steps ++
        if target = [] then []
        else
          fs.trailFrom last budget
            (if rest = [] then slash || (Route.ofBytes target).slash else slash)
            (if (Route.ofBytes target).fromRoot then [] else dir)
            ((Route.ofBytes target).steps ++ rest) := by
  simp only [trailFrom, h]

theorem trailFrom_of_ends (h : fs.stretch last slash loc steps = .ends place) :
    fs.trailFrom last budget slash loc steps = fs.stretchTrail last slash loc steps := by
  cases budget <;> simp [trailFrom, h]

theorem stretchTrail_subset_trailFrom :
    fs.stretchTrail last slash loc steps ⊆ fs.trailFrom last budget slash loc steps := by
  cases budget with
  | zero => exact fun _ h => h
  | succ budget => exact List.subset_append_left _ _

/-! ## A change off the trail -/

theorem stretch_congr
    (h : ∀ l ∈ fs.stretchTrail last slash loc steps, fs'.node? l = fs.node? l) :
    fs'.stretch last slash loc steps = fs.stretch last slash loc steps := by
  induction loc, steps using walk_induction with
  | nil loc => rfl
  | here loc rest ih => exact ih h
  | up loc rest ih => exact ih h
  | last loc n =>
    rw [stretchTrail_last] at h
    rw [stretch_last, stretch_last]
    by_cases hp : last.passesOver slash = true
    · simp [hp]
    by_cases hn : Name.maxLength < n.length
    · simp [hn]
    have := h (n :: loc) (by simp [hp, hn])
    rw [this]
  | name loc n rest hr ih =>
    rw [stretchTrail_name _ _ _ _ _ hr] at h
    rw [stretch_name _ _ _ _ _ hr, stretch_name _ _ _ _ _ hr]
    by_cases hn : Name.maxLength < n.length
    · simp [hn]
    simp only [hn, if_false] at h ⊢
    rw [h (n :: loc) (by simp)]
    rcases hx : fs.node? (n :: loc) with _ | ⟨_ | _ | _ | _⟩
    · rfl
    · exact ih fun l hl => h l (by simp [hx, hl])
    all_goals rfl

theorem walkFrom_congr
    (h : ∀ l ∈ fs.trailFrom last budget slash loc steps, fs'.node? l = fs.node? l) :
    fs'.walkFrom last budget slash loc steps = fs.walkFrom last budget slash loc steps := by
  induction budget generalizing slash loc steps with
  | zero =>
    have hs := stretch_congr h
    cases hm : fs.stretch last slash loc steps with
    | ends place => rw [walkFrom_of_ends hm, walkFrom_of_ends (hs.trans hm)]
    | fails e => rw [walkFrom_of_fails hm, walkFrom_of_fails (hs.trans hm)]
    | meets dir target rest => rw [walkFrom_zero hm, walkFrom_zero (hs.trans hm)]
  | succ budget ih =>
    have hs := stretch_congr fun l hl => h l (stretchTrail_subset_trailFrom hl)
    cases hm : fs.stretch last slash loc steps with
    | ends place => rw [walkFrom_of_ends hm, walkFrom_of_ends (hs.trans hm)]
    | fails e => rw [walkFrom_of_fails hm, walkFrom_of_fails (hs.trans hm)]
    | meets dir target rest =>
      rw [walkFrom_of_meets hm, walkFrom_of_meets (hs.trans hm)]
      rw [trailFrom_of_meets hm] at h
      split
      · rfl
      · rename_i ht
        exact ih fun l hl => h l (by simp [ht, hl])

/-! ## The end of a walk -/

theorem mem_stretchTrail_of_ends {dir : Location} {n : Name} {s : Bool}
    (hp : last.passesOver slash = false)
    (h : fs.stretch last slash loc steps = .ends (.entry dir n s)) :
    n :: dir ∈ fs.stretchTrail last slash loc steps := by
  induction loc, steps using walk_induction with
  | nil loc => simp [stretch] at h
  | here loc rest ih => exact ih h
  | up loc rest ih => exact ih h
  | last loc m =>
    rw [stretch_last] at h
    rw [stretchTrail_last]
    simp only [hp, Bool.false_eq_true, if_false] at h ⊢
    split at h
    · simp at h
    rename_i hm
    have he : dir = loc ∧ n = m := by
      revert h
      rcases fs.node? (m :: loc) with _ | ⟨_ | _ | _ | _⟩ <;> simp
      all_goals grind
    simp [hm, he.1, he.2]
  | name loc m rest hr ih =>
    rw [stretch_name _ _ _ _ _ hr] at h
    rw [stretchTrail_name _ _ _ _ _ hr]
    split at h
    · simp at h
    rename_i hm
    simp only [hm, if_false]
    rcases hx : fs.node? (m :: loc) with _ | ⟨_ | _ | _ | _⟩ <;> simp only [hx] at h
    case some.directory fixed => exact List.mem_cons_of_mem _ (ih h)
    all_goals simp at h

theorem mem_trailFrom_of_arrives {dir : Location} {n : Name} {s : Bool}
    (hp : ∀ b, last.passesOver b = false)
    (h : fs.Arrives last (.entry dir n s) budget slash loc steps) :
    n :: dir ∈ fs.trailFrom last budget slash loc steps := by
  induction h with
  | ends hm => exact stretchTrail_subset_trailFrom (mem_stretchTrail_of_ends (hp _) hm)
  | meets hm ht _ ih =>
    rw [trailFrom_of_meets hm, if_neg ht]
    exact List.mem_append_right _ ih

/-! ## An entry less on the trail -/

/-- The second file system lacks one entry of the first, which is not a directory. -/
structure Lost (spot : Location) (fs fs' : FileSystem) : Prop where
  was : ∃ node, fs.node? spot = some node ∧ node.isDirectory = false
  gone : fs'.node? spot = none
  others : ∀ l, l ≠ spot → fs'.node? l = fs.node? l

theorem stretch_of_lost {spot : Location} (hl : Lost spot fs fs')
    (h : spot ∈ fs.stretchTrail last slash loc steps) :
    fs'.stretch last slash loc steps = .fails .noEntry ∨
      ∃ place, fs'.stretch last slash loc steps = .ends place ∧ place.location = spot := by
  induction loc, steps using walk_induction with
  | nil loc => simp [stretchTrail] at h
  | here loc rest ih => exact ih h
  | up loc rest ih => exact ih h
  | last loc n =>
    rw [stretchTrail_last] at h
    rw [stretch_last]
    split at h
    · simp at h
    rename_i hn
    simp only [Bool.or_eq_true, decide_eq_true_eq, not_or] at hn
    simp only [List.mem_singleton] at h
    simp only [hn.1, hn.2, ← h, hl.gone, if_false]
    exact Or.inr ⟨_, rfl, h.symm⟩
  | name loc n rest hr ih =>
    rw [stretchTrail_name _ _ _ _ _ hr] at h
    rw [stretch_name _ _ _ _ _ hr]
    split at h
    · simp at h
    rename_i hn
    simp only [hn, if_false]
    by_cases hs : n :: loc = spot
    · simp [hs, hl.gone]
    · rw [hl.others _ hs]
      rw [List.mem_cons] at h
      rcases h with h | h
      · exact absurd h.symm hs
      rcases hx : fs.node? (n :: loc) with _ | ⟨_ | _ | _ | _⟩ <;> simp only [hx] at h
      case some.directory fixed => exact ih h
      all_goals simp at h

theorem stretch_of_off {spot : Location} (hothers : ∀ l, l ≠ spot → fs'.node? l = fs.node? l)
    (h : spot ∉ fs.stretchTrail last slash loc steps) :
    fs'.stretch last slash loc steps = fs.stretch last slash loc steps :=
  stretch_congr fun l hl => hothers l fun he => h (he ▸ hl)

theorem walkFrom_of_lost {spot : Location} (hl : Lost spot fs fs')
    (h : spot ∈ fs.trailFrom last budget slash loc steps) :
    fs'.walkFrom last budget slash loc steps = .error .noEntry ∨
      ∃ place, fs'.walkFrom last budget slash loc steps = .ok place ∧ place.location = spot := by
  induction budget generalizing slash loc steps with
  | zero =>
    rcases stretch_of_lost hl h with hs | ⟨place, hs, hp⟩
    · exact Or.inl (walkFrom_of_fails hs)
    · exact Or.inr ⟨place, walkFrom_of_ends hs, hp⟩
  | succ budget ih =>
    by_cases ht : spot ∈ fs.stretchTrail last slash loc steps
    · rcases stretch_of_lost hl ht with hs | ⟨place, hs, hp⟩
      · exact Or.inl (walkFrom_of_fails hs)
      · exact Or.inr ⟨place, walkFrom_of_ends hs, hp⟩
    -- The entry comes after the next link.
    have hs := stretch_of_off hl.others ht
    cases hm : fs.stretch last slash loc steps with
    | ends place => simp [trailFrom, hm, ht] at h
    | fails e => simp [trailFrom, hm, ht] at h
    | meets dir target rest =>
      rw [walkFrom_of_meets (hs.trans hm)]
      rw [trailFrom_of_meets hm, List.mem_append] at h
      split
      · exact Or.inl rfl
      · rename_i hne
        simp only [ht, hne, if_false, false_or] at h
        exact ih h

theorem walk_of_route {route : Route} (hr : p.route = .ok route) :
    fs.walk last here p =
      match fs.walkFrom last maxLinks route.slash (if route.fromRoot then [] else here)
        route.steps with
      | .ok place => .ok place
      | .error errno => .error (.code errno) := by
  unfold walk
  rw [hr]
  dsimp only
  cases fs.walkFrom last maxLinks route.slash (if route.fromRoot then [] else here) route.steps <;>
    rfl

theorem find_of_lost {spot : Location} (hl : Lost spot fs fs') (h : spot ∈ fs.trail last here p) :
    fs'.find last here p = .error (.code .noEntry) := by
  unfold trail at h
  unfold find
  cases hr : p.route with
  | error e => simp [hr] at h
  | ok route =>
    simp only [hr] at h
    rw [walk_of_route hr]
    rcases walkFrom_of_lost hl h with hw | ⟨place, hw, hp⟩
    · rw [hw]
    · rw [hw]
      simp [nodeAt, hp, hl.gone, Except.map]

theorem walk_of_off {spot : Location} (hothers : ∀ l, l ≠ spot → fs'.node? l = fs.node? l)
    (h : spot ∉ fs.trail last here p) : fs'.walk last here p = fs.walk last here p := by
  unfold trail at h
  unfold walk
  cases hr : p.route with
  | error e => rfl
  | ok route =>
    simp only [hr] at h ⊢
    rw [walkFrom_congr fun l hl => hothers l fun he => h (he ▸ hl)]

theorem walk_eq_ok_iff :
    fs.walk last here p = .ok place ↔ ∃ route, p.route = .ok route ∧
      fs.Arrives last place maxLinks route.slash (if route.fromRoot then [] else here)
        route.steps := by
  cases hr : p.route with
  | error e => simp [walk, hr]
  | ok route =>
    simp only [walk_of_route hr, Except.ok.injEq, exists_eq_left', arrives_iff]
    cases fs.walkFrom last maxLinks route.slash (if route.fromRoot then [] else here) route.steps <;>
      simp

theorem mem_trail_of_walk {dir : Location} {n : Name} {s : Bool}
    (hp : ∀ b, last.passesOver b = false)
    (h : fs.walk last here p = .ok (.entry dir n s)) : n :: dir ∈ fs.trail last here p := by
  obtain ⟨route, hr, hw⟩ := walk_eq_ok_iff.1 h
  simpa only [trail, hr] using mem_trailFrom_of_arrives hp hw

/-! ## What an erasure takes away -/

theorem hasDirectory_iff : fs.nodes.hasDirectory loc = true ↔ fs.IsDirectory loc := by
  cases loc with
  | nil => exact iff_of_true rfl ⟨false, rfl⟩
  | cons n dir =>
    rw [IsDirectory, node?_cons]
    rcases hx : fs.nodes.get? (n :: dir) with _ | ⟨_ | _ | _ | _⟩ <;>
      simp [Nodes.hasDirectory, hx, Node.isDirectory]

theorem isDirectory_of_below (fs : FileSystem) {spot loc : Location} {node : Node}
    (h : fs.node? loc = some node) (hb : spot <:+ loc) (hne : spot ≠ loc) :
    ∃ fixed, fs.node? spot = some (.directory fixed) := by
  induction loc generalizing node with
  | nil => exact absurd (List.suffix_nil.1 hb) hne
  | cons n dir ih =>
    have hup : spot <:+ dir := by
      rcases List.suffix_cons_iff.1 hb with h' | h'
      · exact absurd h' hne
      · exact h'
    have hmem : (n :: dir, node) ∈ fs.nodes := by
      obtain ⟨l₁, l₂, heq, -⟩ := List.lookup_eq_some_iff.1 (node?_cons fs n dir ▸ h)
      rw [heq]
      simp
    have hdir : fs.IsDirectory dir := hasDirectory_iff.1 (fs.sound.inDirectory _ hmem)
    by_cases he : spot = dir
    · exact he ▸ hdir
    · obtain ⟨fixed, hd⟩ := hdir
      exact ih hd hup he

theorem lost_erase {spot : Location} {node : Node} (h : fs.node? spot = some node)
    (hd : node.isDirectory = false) : Lost spot fs (fs.erase spot) where
  was := ⟨node, h, hd⟩
  gone := by
    have : spot ≠ [] := by
      rintro rfl
      cases h
      simp [Node.isDirectory] at hd
    rw [node?_erase, if_pos ⟨List.suffix_refl spot, this⟩]
  others := by
    intro l hl
    rw [node?_erase]
    split
    · rename_i hs
      cases hx : fs.node? l with
      | none => rfl
      | some x =>
        obtain ⟨fixed, hf⟩ := isDirectory_of_below fs hx hs.1 (Ne.symm hl)
        rw [hf] at h
        cases h
        simp [Node.isDirectory] at hd
    · rfl

/-! ## Why a walk fails -/

/-- The errors that a walk fails with. -/
def walkErrors : List Errno := [.noEntry, .notDirectory, .nameTooLong, .tooManyLinks]

theorem mem_walkErrors_of_stretch {e : Errno}
    (h : fs.stretch last slash loc steps = .fails e) : e ∈ walkErrors := by
  fun_induction stretch fs last slash loc steps <;> simp_all [walkErrors]

theorem mem_walkErrors_of_walkFrom {e : Errno}
    (h : fs.walkFrom last budget slash loc steps = .error e) : e ∈ walkErrors := by
  fun_induction walkFrom fs last budget slash loc steps with
  | case1 => cases h
  | case2 budget slash loc steps errno hm =>
    cases h
    exact mem_walkErrors_of_stretch hm
  | case3 | case4 =>
    cases h
    simp [walkErrors]
  | case5 slash loc steps dir target rest left hm hne route ih => exact ih h

end ModuleInstall.FileSystem
