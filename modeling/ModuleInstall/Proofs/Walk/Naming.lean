import ModuleInstall.Proofs.Listing
import ModuleInstall.Proofs.Paths
import ModuleInstall.Proofs.Walk.Joining

/-! # The entry that a path names -/

namespace ModuleInstall.FileSystem

variable {fs : FileSystem} {here dir loc spot : Location} {p : Path} {n : Name} {place : Place}
  {slash : Bool} {steps : List Step} {budget : Nat}

/-- The path names the entry at a location. A link there is not followed. -/
def Names (fs : FileSystem) (here : Location) (p : Path) (spot : Location) : Prop :=
  ∃ dir n slash, fs.walk .kept here p = .ok (.entry dir n slash) ∧ spot = n :: dir

theorem Names.unique {spot' : Location} (h : fs.Names here p spot) (h' : fs.Names here p spot') :
    spot = spot' := by
  obtain ⟨dir, n, slash, hw, rfl⟩ := h
  obtain ⟨dir', n', slash', hw', rfl⟩ := h'
  rw [hw] at hw'
  cases hw'
  rfl

/-! ## The last name -/

theorem stretch_kept_last (fs : FileSystem) (slash : Bool) (loc : Location) (n : Name) :
    fs.stretch .kept slash loc [.name n] =
      if Name.maxLength < n.length then .fails .nameTooLong else .ends (.entry loc n slash) := by
  rw [stretch_last]
  simp only [LastLink.passesOver, LastLink.follows, Bool.false_eq_true, if_false]
  split
  · rfl
  rcases fs.node? (n :: loc) with _ | ⟨_ | _ | _ | _⟩ <;> rfl

theorem stretchOn_kept_last (fs : FileSystem) (slash : Bool) (place : Place) (n : Name) :
    (∃ e, fs.stretchOn .kept slash place [.name n] = .fails e) ∨
      ∃ dir, fs.stretchOn .kept slash place [.name n] = .ends (.entry dir n slash) := by
  have hlast : ∀ loc, (∃ e, fs.stretch .kept slash loc [.name n] = .fails e) ∨
      ∃ dir, fs.stretch .kept slash loc [.name n] = .ends (.entry dir n slash) := by
    intro loc
    rw [stretch_kept_last]
    split
    · exact Or.inl ⟨_, rfl⟩
    · exact Or.inr ⟨loc, rfl⟩
  cases place with
  | directory d => simpa only [stretchOn] using hlast d
  | entry d m s =>
    simp only [stretchOn, Place.location]
    rcases hx : fs.node? (m :: d) with _ | ⟨_ | _ | _ | _⟩
    case some.directory => exact hlast _
    all_goals exact Or.inl ⟨_, rfl⟩

theorem entry_of_arrives (h : fs.Arrives .kept place budget slash loc (steps ++ [.name n])) :
    ∃ dir, place = .entry dir n slash := by
  generalize hfull : steps ++ [Step.name n] = full at h
  induction h generalizing steps with
  | @ends budget slash loc full hm =>
    rw [← hfull, stretch_append false (by simp)] at hm
    cases hs : fs.stretch .followed false loc steps with
    | ends place' =>
      simp only [hs] at hm
      rcases stretchOn_kept_last fs slash place' n with ⟨e, he⟩ | ⟨d, he⟩ <;> rw [he] at hm
      · cases hm
      · cases hm
        exact ⟨d, rfl⟩
    | meets d target more => simp [hs] at hm
    | fails e => simp [hs] at hm
  | @meets budget slash loc d full rest target hm _ _ ih =>
    rw [← hfull, stretch_append false (by simp)] at hm
    cases hs : fs.stretch .followed false loc steps with
    | ends place' =>
      simp only [hs] at hm
      rcases stretchOn_kept_last fs slash place' n with ⟨e, he⟩ | ⟨d, he⟩ <;> rw [he] at hm <;>
        cases hm
    | meets d' target' more =>
      simp only [hs, Stretch.meets.injEq] at hm
      obtain ⟨rfl, rfl, rfl⟩ := hm
      simpa using ih (List.append_assoc _ _ _)
    | fails e => simp [hs] at hm

/-! ## A name behind a path -/

theorem ofBytes_join_name (p : Path) (hn : IsPiece n) :
    ∃ steps, (Route.ofBytes (p.join n).bytes).steps = steps ++ [.name n] ∧
      (Route.ofBytes (p.join n).bytes).slash = false := by
  obtain ⟨hsteps, hslash⟩ := Path.ofBytes_piece hn
  by_cases hp : p.bytes = []
  · obtain ⟨bytes⟩ := p
    obtain rfl : bytes = [] := hp
    rw [Path.join_of_empty hn.isRelative]
    exact ⟨[], hsteps, hslash⟩
  · rw [Path.ofBytes_join hp hn.isRelative, hsteps]
    exact ⟨_, rfl, hslash⟩

/-- A name that is put behind a path is the name of the entry that the new path names. -/
theorem entry_of_walk_join (hn : IsPiece n) (h : fs.walk .kept here (p.join n) = .ok place) :
    ∃ dir, place = .entry dir n false := by
  obtain ⟨route, hr, ha⟩ := walk_eq_ok_iff.1 h
  obtain ⟨-, rfl⟩ := Path.route_eq_ok hr
  obtain ⟨steps, hsteps, hslash⟩ := ofBytes_join_name p hn
  rw [hsteps, hslash] at ha
  exact entry_of_arrives ha

theorem Names.head_of_join (hn : IsPiece n) (h : fs.Names here (p.join n) spot) :
    ∃ dir, spot = n :: dir := by
  obtain ⟨dir, m, slash, hw, rfl⟩ := h
  obtain ⟨dir', he⟩ := entry_of_walk_join hn hw
  cases he
  exact ⟨dir, rfl⟩

/-- What a name is put behind when it is put behind a path: the directory that the path stands for,
or the current one if the path is empty. -/
def Behind (fs : FileSystem) (here : Location) (p : Path) (dir : Location) : Prop :=
  p.bytes = [] ∧ dir = here ∨ fs.directoryAt here p = .ok dir

theorem walk_kept_join (hb : fs.Behind here p dir) (hn : n.Proper)
    (hshort : (p.join n).bytes.length < Route.maxLength) :
    fs.walk .kept here (p.join n) = .ok (.entry dir n false) := by
  have hpiece := hn.isPiece
  obtain ⟨hsteps, hslash⟩ := Path.ofBytes_piece hpiece
  have hend : fs.stretch .kept false dir [.name n] = .ends (.entry dir n false) := by
    rw [stretch_kept_last, if_neg (Nat.not_lt.2 hn.2.2.2.2.2)]
  rcases hb with ⟨hempty, rfl⟩ | hd
  · obtain ⟨bytes⟩ := p
    obtain rfl : bytes = [] := hempty
    rw [Path.join_of_empty hpiece.isRelative] at hshort ⊢
    have hroute : (Path.mk n).route = .ok (.ofBytes n) := by
      rw [Path.route, if_neg hn.2.2.2.2.1, if_neg hn.1, if_neg (Nat.not_le.2 hshort)]
    refine walk_eq_ok_iff.2 ⟨_, hroute, .ends ?_⟩
    rw [hsteps, hslash, Path.fromRoot_of_relative hpiece.isRelative]
    exact hend
  · obtain ⟨place, hw, rfl, hdir⟩ := directoryAt_eq_ok_iff.1 hd
    obtain ⟨_, hr, ha⟩ := walk_eq_ok_iff.1 hw
    obtain ⟨hne, rfl⟩ := Path.route_eq_ok hr
    have hroute := Path.route_join hr hpiece.isRelative hn.2.2.2.2.1 hshort
    refine walk_eq_ok_iff.2 ⟨_, hroute, ?_⟩
    rw [Path.ofBytes_join hne hpiece.isRelative, hsteps, hslash]
    exact arrives_append (by simp) ha hdir hend

end ModuleInstall.FileSystem
