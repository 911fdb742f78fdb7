import ModuleInstall.Proofs.Listing
import ModuleInstall.Proofs.Paths
import ModuleInstall.Proofs.Walk.Joining

/-!
# File systems without links

Where there are no links, where a path leads to depends on the directories alone.
-/

namespace ModuleInstall.FileSystem

variable {fs fs' : FileSystem} {here dir loc : Location} {p : Path} {n a : Name} {x : Bytes}
  {last : LastLink} {slash : Bool} {steps : List Step} {place : Place} {route : Route}

def Linkless (fs : FileSystem) : Prop := ∀ l target, fs.node? l ≠ some (.link target)

namespace Linkless

variable (h : fs.Linkless)
include h

theorem not_meets {target : Bytes} {rest : List Step} :
    fs.stretch last slash loc steps ≠ .meets dir target rest := by
  intro hm
  induction loc, steps using walk_induction with
  | nil loc => cases hm
  | here loc more ih => exact ih hm
  | up loc more ih => exact ih hm
  | last loc n =>
    rw [stretch_last_of_not_link (h _)] at hm
    split at hm <;> cases hm
  | name loc n more hr ih =>
    rw [stretch_name _ _ _ _ _ hr] at hm
    split at hm
    · cases hm
    rcases hx : fs.node? (n :: loc) with _ | ⟨_ | _ | target | _⟩ <;> simp only [hx] at hm
    case some.directory fixed => exact ih hm
    case some.link => exact h _ _ hx
    all_goals cases hm

theorem arrives_iff_stretch {budget : Nat} :
    fs.Arrives last place budget slash loc steps ↔
      fs.stretch last slash loc steps = .ends place := by
  constructor
  · intro ha
    cases ha with
    | ends hm => exact hm
    | meets hm => exact absurd hm h.not_meets
  · exact .ends

theorem walk_eq_ok_iff_stretch :
    fs.walk last here p = .ok place ↔ ∃ route, p.route = .ok route ∧
      fs.stretch last route.slash (if route.fromRoot then [] else here) route.steps =
        .ends place := by
  rw [walk_eq_ok_iff]
  simp only [h.arrives_iff_stretch]

theorem stretch_one :
    fs.stretch last false loc [.name n] =
      if Name.maxLength < n.length then .fails .nameTooLong else .ends (.entry loc n false) := by
  rw [stretch_last_of_not_link (h _)]
  have hp : last.passesOver false = false := by cases last <;> rfl
  simp [hp]

end Linkless

/-! ## The same directories -/

/-- The file systems have the same directories, and no links. -/
structure SameDirectories (fs fs' : FileSystem) : Prop where
  linkless : fs.Linkless
  linkless' : fs'.Linkless
  isDirectory_iff : ∀ l, fs'.IsDirectory l ↔ fs.IsDirectory l

theorem isDirectory_iff_of_others {spot : Location}
    (hothers : ∀ l, l ≠ spot → fs'.node? l = fs.node? l) (h : ¬ fs.IsDirectory spot)
    (h' : ¬ fs'.IsDirectory spot) (l : Location) : fs'.IsDirectory l ↔ fs.IsDirectory l := by
  by_cases hl : l = spot
  · rw [hl]
    exact iff_of_false h' h
  · rw [IsDirectory, IsDirectory, hothers l hl]

theorem SameDirectories.of_others {spot : Location} (hl : fs.Linkless)
    (hothers : ∀ l, l ≠ spot → fs'.node? l = fs.node? l) (h : ¬ fs.IsDirectory spot)
    (h' : ∀ node, fs'.node? spot = some node → ∃ c x, node = .file c x) :
    SameDirectories fs fs' where
  linkless := hl
  linkless' l target hx := by
    by_cases he : l = spot
    · obtain ⟨c, x, hf⟩ := h' _ (he ▸ hx)
      cases hf
    · exact hl l target (hothers l he ▸ hx)
  isDirectory_iff := by
    refine isDirectory_iff_of_others hothers h ?_
    rintro ⟨fixed, hx⟩
    obtain ⟨c, x, hf⟩ := h' _ hx
    cases hf

theorem SameDirectories.of_write {content : Bytes} (hl : fs.Linkless)
    (h : fs.write here p content = .ok fs') : SameDirectories fs fs' := by
  obtain ⟨d, m, x, -, -, hwas, hnow, hothers⟩ := write_spec h
  refine .of_others hl hothers ?_ fun node hx => ⟨content, x, by simpa [hnow] using hx.symm⟩
  rintro ⟨fixed, hx⟩
  simp [hx] at hwas

theorem SameDirectories.of_remove (hl : fs.Linkless) (h : fs.remove here p = .ok fs') :
    SameDirectories fs fs' := by
  obtain ⟨d, m, node, -, -, hx, hd, rfl⟩ := remove_spec h
  have hlost := lost_erase hx hd
  refine .of_others hl hlost.others ?_ fun node hx => by simp [hlost.gone] at hx
  rintro ⟨fixed, hf⟩
  rw [hx] at hf
  cases hf
  cases hd

namespace SameDirectories

theorem refl (h : fs.Linkless) : SameDirectories fs fs := ⟨h, h, fun _ => Iff.rfl⟩

variable (h : SameDirectories fs fs')
include h

theorem symm : SameDirectories fs' fs :=
  ⟨h.linkless', h.linkless, fun l => (h.isDirectory_iff l).symm⟩

theorem trans {fs'' : FileSystem} (h' : SameDirectories fs' fs'') : SameDirectories fs fs'' :=
  ⟨h.linkless, h'.linkless', fun l => (h'.isDirectory_iff l).trans (h.isDirectory_iff l)⟩

/-- Where there are the same directories, and no links, a walk goes the same way. -/
theorem stretch (hs : fs.stretch last slash loc steps = .ends place) :
    fs'.stretch last slash loc steps = .ends place := by
  induction loc, steps using walk_induction with
  | nil loc => exact hs
  | here loc more ih => exact ih hs
  | up loc more ih => exact ih hs
  | last loc n =>
    rw [stretch_last_of_not_link (h.linkless _)] at hs
    rw [stretch_last_of_not_link (h.linkless' _), hs]
  | name loc n more hr ih =>
    rw [stretch_name _ _ _ _ _ hr] at hs ⊢
    split at hs
    · cases hs
    rename_i hn
    rw [if_neg hn]
    rcases hx : fs.node? (n :: loc) with _ | ⟨fixed | _ | target | _⟩ <;> simp only [hx] at hs
    case some.directory =>
      obtain ⟨fixed', hx'⟩ := (h.isDirectory_iff _).2 ⟨fixed, hx⟩
      simp only [hx']
      exact ih hs
    all_goals cases hs

theorem walk (hw : fs.walk last here p = .ok place) : fs'.walk last here p = .ok place := by
  obtain ⟨route, hr, hs⟩ := h.linkless.walk_eq_ok_iff_stretch.1 hw
  exact h.linkless'.walk_eq_ok_iff_stretch.2 ⟨route, hr, h.stretch hs⟩

theorem directoryAt (hp : fs.directoryAt here p = .ok loc) : fs'.directoryAt here p = .ok loc := by
  obtain ⟨place, hw, rfl, hl⟩ := directoryAt_eq_ok_iff.1 hp
  exact directoryAt_eq_ok_iff.2 ⟨place, h.walk hw, rfl, (h.isDirectory_iff _).2 hl⟩

end SameDirectories

/-! ## Behind a directory -/

theorem walkFrom_of_stretch_eq {loc' : Location} {steps' : List Step} {budget : Nat}
    (h : fs.stretch last slash loc steps = fs.stretch last slash loc' steps') :
    fs.walkFrom last budget slash loc steps = fs.walkFrom last budget slash loc' steps' := by
  rw [walkFrom.eq_def, walkFrom.eq_def fs last budget slash loc' steps']
  simp only [h]

theorem walk_join (h : fs.Linkless) (hd : fs.directoryAt here p = .ok loc) (hx : IsRelative x)
    (hroute : (p.join x).route = .ok route) :
    fs.walk last here (p.join x) = fs.walk last loc ⟨x⟩ := by
  obtain ⟨place, hw, rfl, hdir⟩ := directoryAt_eq_ok_iff.1 hd
  obtain ⟨_, hr, hs⟩ := h.walk_eq_ok_iff_stretch.1 hw
  obtain ⟨hne, rfl⟩ := Path.route_eq_ok hr
  obtain ⟨-, rfl⟩ := Path.route_eq_ok hroute
  have hrest : (Route.ofBytes x).steps ≠ [] := Path.steps_ne_nil hx
  rw [walk_of_route hroute, walk_of_route (Path.route_of_join hne hx hroute),
    Path.ofBytes_join hne hx, Path.fromRoot_of_relative hx]
  have hsame : fs.stretch last (Route.ofBytes x).slash
      (if (Route.ofBytes p.bytes).fromRoot then [] else here)
      ((Route.ofBytes p.bytes).steps ++ (Route.ofBytes x).steps) =
        fs.stretch last (Route.ofBytes x).slash place.location (Route.ofBytes x).steps := by
    rw [stretch_append (Route.ofBytes p.bytes).slash hrest, hs]
    exact stretchOn_of_directory hdir
  rw [walkFrom_of_stretch_eq hsame]
  rfl

/-- Where a path leads that puts one name behind a directory, unless something is wrong with how it
is spelled. -/
def entryBehind (p : Path) (loc : Location) (n : Name) : Except SystemError Place :=
  match p.route with
  | .error e => .error e
  | .ok _ =>
    if Name.maxLength < n.length then .error (.code .nameTooLong) else .ok (.entry loc n false)

theorem walk_join_name (h : fs.Linkless) (hd : fs.directoryAt here p = .ok loc) (hn : IsPiece n) :
    fs.walk last here (p.join n) = entryBehind (p.join n) loc n := by
  unfold entryBehind
  cases hroute : (p.join n).route with
  | error e => rw [walk, hroute]
  | ok route =>
    have hne : p.bytes ≠ [] := by
      rintro hp
      simp [directoryAt, find, walk, Path.route, hp] at hd
    obtain ⟨hsteps, hslash⟩ := Path.ofBytes_piece hn
    rw [walk_join h hd hn.isRelative hroute,
      walk_of_route (Path.route_of_join hne hn.isRelative hroute), hsteps, hslash,
      Path.fromRoot_of_relative hn.isRelative]
    have hone : fs.stretch last false loc [.name n] = _ := h.stretch_one
    split at hone
    · rename_i hlong
      simp only [Bool.false_eq_true, if_false, walkFrom_of_fails hone, if_pos hlong]
    · rename_i hshort
      simp only [Bool.false_eq_true, if_false, walkFrom_of_ends hone, if_neg hshort]

theorem stretch_heres (fs : FileSystem) {heres : List Step} (hh : ∀ step ∈ heres, step = .here)
    (last : LastLink) (slash : Bool) (loc : Location) :
    fs.stretch last slash loc heres = .ends (.directory loc) := by
  induction heres with
  | nil => rfl
  | cons step more ih =>
    rw [List.forall_mem_cons] at hh
    rw [hh.1]
    exact ih hh.2

theorem stretch_of_heres (h : fs.Linkless) {heres : List Step} (hh : ∀ step ∈ heres, step = .here)
    (hs : fs.stretch .followed slash loc (steps ++ heres) = .ends place)
    (hd : fs.IsDirectory place.location) (slash' : Bool) :
    ∃ place', fs.stretch .followed slash' loc steps = .ends place' ∧
      fs.IsDirectory place'.location ∧ place'.location = place.location := by
  have hstay := fun d => stretch_heres fs hh .followed slash d
  by_cases he : heres = []
  · rw [he, List.append_nil] at hs
    have ha : fs.Arrives .followed place 0 slash loc steps := h.arrives_iff_stretch.2 hs
    obtain ⟨place', hp, hloc⟩ := arrives_of_slash ha slash'
    exact ⟨place', h.arrives_iff_stretch.1 hp, hloc ▸ hd, hloc⟩
  · rw [stretch_append slash' he] at hs
    cases hm : fs.stretch .followed slash' loc steps with
    | meets dir target rest => exact absurd hm h.not_meets
    | fails e =>
      rw [hm] at hs
      cases hs
    | ends place' =>
      rw [hm] at hs
      refine ⟨place', rfl, ?_⟩
      cases place' with
      | directory d =>
        simp only [stretchOn, hstay] at hs
        cases hs
        exact ⟨hd, rfl⟩
      | entry d m s =>
        simp only [stretchOn, Place.location] at hs
        rcases hx : fs.node? (m :: d) with _ | ⟨fixed | _ | _ | _⟩ <;> simp only [hx] at hs
        case some.directory =>
          rw [hstay] at hs
          cases hs
          exact ⟨⟨fixed, hx⟩, rfl⟩
        all_goals cases hs

theorem exists_parent_join (h : fs.Linkless) (hd : fs.directoryAt here p = .ok loc)
    (hn : IsPiece n) :
    ∃ dir, (p.join n).parent? = some dir ∧ dir.bytes ≠ [] ∧ fs.directoryAt here dir = .ok loc := by
  obtain ⟨place, hw, rfl, hdir⟩ := directoryAt_eq_ok_iff.1 hd
  obtain ⟨_, hr, hs⟩ := h.walk_eq_ok_iff_stretch.1 hw
  obtain ⟨hne, rfl⟩ := Path.route_eq_ok hr
  obtain ⟨dir, hparent, hdne, hpre, hroot, heres, hall, hsteps⟩ := Path.parent?_join hne hn
  refine ⟨dir, hparent, hdne, ?_⟩
  have hroute : dir.route = .ok (.ofBytes dir.bytes) := Path.route_of_prefix hr hpre hdne
  rw [hsteps, ← hroot] at hs
  obtain ⟨place', hs', hd', hloc⟩ := stretch_of_heres h hall hs hdir
    (Route.ofBytes dir.bytes).slash
  exact directoryAt_eq_ok_iff.2
    ⟨place', h.walk_eq_ok_iff_stretch.2 ⟨_, hroute, hs'⟩, hloc, hloc ▸ hd'⟩

/-! ## Names in a directory -/

/-- However links are treated, a path leads to the entry of a name in a directory. -/
def Leads (fs : FileSystem) (here : Location) (p : Path) (dir : Location) (n : Name) : Prop :=
  ∀ last, fs.walk last here p = .ok (.entry dir n false)

theorem SameDirectories.leads (h : SameDirectories fs fs') (hl : fs.Leads here p dir n) :
    fs'.Leads here p dir n :=
  fun last => h.walk (hl last)

theorem leads_of_walk_join (h : fs.Linkless) (hd : fs.directoryAt here p = .ok loc) (hn : IsPiece n)
    (hw : fs.walk last here (p.join n) = .ok place) : fs.Leads here (p.join n) loc n := by
  intro last'
  rw [walk_join_name h hd hn] at hw ⊢
  unfold entryBehind at hw ⊢
  split at hw
  · cases hw
  · split at hw
    · cases hw
    · rw [if_neg ‹_›]

theorem leads_join (h : fs.Linkless) (hd : fs.directoryAt here p = .ok loc) (hn : n.Proper)
    (hlen : (p.join n).bytes.length < Route.maxLength) : fs.Leads here (p.join n) loc n := by
  intro last
  obtain ⟨place, hw, -, -⟩ := directoryAt_eq_ok_iff.1 hd
  obtain ⟨route, hr, -⟩ := walk_eq_ok_iff.1 hw
  have hshort : ¬ Name.maxLength < n.length := Nat.not_lt.2 hn.2.2.2.2.2
  rw [walk_join_name h hd hn.isPiece, entryBehind,
    Path.route_join hr hn.isPiece.isRelative hn.2.2.2.2.1 hlen]
  simp [hshort]

theorem leads_withFileName (h : fs.Linkless) (hd : fs.directoryAt here p = .ok loc) (hn : IsPiece n)
    (ha : IsPiece a) (hw : fs.walk last here ((p.join n).withFileName a) = .ok place) :
    fs.Leads here ((p.join n).withFileName a) loc a := by
  obtain ⟨dir, hparent, -, hdir⟩ := exists_parent_join h hd hn
  rw [Path.withFileName_join hn hparent] at hw ⊢
  exact leads_of_walk_join h hdir ha hw

end ModuleInstall.FileSystem
