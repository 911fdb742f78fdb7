import ModuleInstall.Proofs.Moving

/-!
# Turn by turn

Between two turns there are the entries so far, the files that are left, and a session.
-/

namespace ModuleInstall.Installer

open ModuleInstall.Action

variable {i : Installer} {total number : Nat} {items rest : List (Path × Nat)} {path dir : Path}
  {entries more : List (String × Outcome)} {entry : Option (String × Outcome)}
  {s s' t t' : Session} {e : InstallError}

/-- What the handling of `items` comes to between two turns, if it starts in session `s`. -/
inductive Reaches (i : Installer) (total : Nat) (items : List (Path × Nat)) (s : Session) :
    List (String × Outcome) → List (Path × Nat) → Session → Prop
  | start : Reaches i total items s [] items s
  | turn {entries : List (String × Outcome)} {path : Path} {number : Nat}
      {rest : List (Path × Nat)} {entry : Option (String × Outcome)} {t t' : Session} :
      Reaches i total items s entries ((path, number) :: rest) t →
      i.handleListed total path number t = .ok entry t' →
      Reaches i total items s (entries ++ entry.toList) rest t'

theorem handleAll_cons_of_ok (h : i.handleListed total path number s = .ok entry t) :
    i.handleAll total ((path, number) :: rest) s =
      match i.handleAll total rest t with
      | .ok more t' => .ok (entry.toList ++ more) t'
      | .error e t' => .error e t' := by
  rw [handleAll, run_bind_of_ok h]
  cases hm : i.handleAll total rest t with
  | ok more t' => exact run_bind_of_ok hm
  | error e t' => exact run_bind_of_error hm

theorem handleAll_cons_of_error (h : i.handleListed total path number s = .error e t) :
    i.handleAll total ((path, number) :: rest) s = .error e t := by
  rw [handleAll, run_bind_of_error h]

theorem handleAll_of_reaches (h : i.Reaches total items s entries rest t) :
    i.handleAll total items s =
      match i.handleAll total rest t with
      | .ok more t' => .ok (entries ++ more) t'
      | .error e t' => .error e t' := by
  induction h with
  | start => cases i.handleAll total items s <;> simp
  | turn _ hl ih =>
    rw [ih, handleAll_cons_of_ok hl]
    split <;> rename_i heq <;> split at heq <;> simp_all

theorem reaches_append {entries' : List (String × Outcome)} {rest' : List (Path × Nat)}
    (h : i.Reaches total items s entries rest t)
    (h' : i.Reaches total rest t entries' rest' t') :
    i.Reaches total items s (entries ++ entries') rest' t' := by
  induction h' with
  | start => simpa using h
  | turn _ hl ih =>
    rw [← List.append_assoc]
    exact .turn ih hl

theorem suffix_of_reaches (h : i.Reaches total items s entries rest t) : rest <:+ items := by
  induction h with
  | start => exact List.suffix_refl items
  | turn _ _ ih => exact (List.suffix_cons _ _).trans ih

theorem reaches_cons (h : i.Reaches total ((path, number) :: items) s entries rest t) :
    rest = (path, number) :: items ∧ t = s ∨
      ∃ entry s₁ more, i.handleListed total path number s = .ok entry s₁ ∧
        i.Reaches total items s₁ more rest t := by
  induction h with
  | start => exact Or.inl ⟨rfl, rfl⟩
  | @turn entries path' number' rest entry t t' _ hl ih =>
    rcases ih with ⟨heq, rfl⟩ | ⟨entry₀, s₁, more, h₀, hr⟩
    · cases heq
      exact Or.inr ⟨entry, t', [], hl, .start⟩
    · exact Or.inr ⟨entry₀, s₁, _, h₀, .turn hr hl⟩

theorem handleAll_ok_iff :
    i.handleAll total items s = .ok entries s' ↔ i.Reaches total items s entries [] s' := by
  constructor
  · intro h
    induction items generalizing s entries with
    | nil =>
      cases h
      exact .start
    | cons item rest ih =>
      obtain ⟨path, number⟩ := item
      cases hl : i.handleListed total path number s with
      | error e t => simp [handleAll_cons_of_error hl] at h
      | ok entry t =>
        rw [handleAll_cons_of_ok hl] at h
        cases hm : i.handleAll total rest t with
        | error e t' => simp [hm] at h
        | ok more t' =>
          simp only [hm] at h
          cases h
          exact reaches_append (.turn .start hl) (ih hm)
  · intro h
    rw [handleAll_of_reaches h, handleAll]
    simp

theorem handleAll_error_iff :
    i.handleAll total items s = .error e s' ↔
      ∃ entries path number rest t, i.Reaches total items s entries ((path, number) :: rest) t ∧
        i.handleListed total path number t = .error e s' := by
  constructor
  · intro h
    induction items generalizing s with
    | nil => cases h
    | cons item rest ih =>
      obtain ⟨path, number⟩ := item
      cases hl : i.handleListed total path number s with
      | error e' t =>
        rw [handleAll_cons_of_error hl] at h
        cases h
        exact ⟨[], path, number, rest, s, .start, hl⟩
      | ok entry t =>
        rw [handleAll_cons_of_ok hl] at h
        cases hm : i.handleAll total rest t with
        | ok more t' => simp [hm] at h
        | error e' t' =>
          simp only [hm] at h
          cases h
          obtain ⟨entries, path', number', rest', t', hr, he⟩ := ih hm
          exact ⟨_, path', number', rest', t', reaches_append (.turn .start hl) hr, he⟩
  · rintro ⟨entries, path, number, rest, t, hr, he⟩
    rw [handleAll_of_reaches hr, handleAll_cons_of_error he]

theorem entries_of_reaches {name : String} {outcome : Outcome}
    (h : i.Reaches total items s entries rest t) (hm : (name, outcome) ∈ entries) :
    ∃ entries₀ path number rest₀ t₀ t₁, i.Reaches total items s entries₀ ((path, number) :: rest₀) t₀ ∧
      i.handleListed total path number t₀ = .ok (some (name, outcome)) t₁ := by
  induction h with
  | start => simp at hm
  | @turn entries path number rest entry t t' hr hl ih =>
    rcases List.mem_append.1 hm with hm | hm
    · exact ih hm
    · obtain rfl : entry = some (name, outcome) := by simpa using hm
      exact ⟨entries, path, number, rest, t, t', hr, hl⟩

/-! ## A run -/

/-- A run over a directory that starts in session `s`, after the tree has been brought into shape
and the directory has been listed. -/
def Runs (i : Installer) (dir : Path) (s : Session) (paths : List Path)
    (entries : List (String × Outcome)) (rest : List (Path × Nat)) (t : Session) : Prop :=
  ∃ s₁, i.provision s = .ok () s₁ ∧ i.listFiles dir s₁ = .ok paths s₁ ∧
    i.Reaches paths.length (paths.zipIdx 1) s₁ entries rest t

theorem reaches_of_runs {paths : List Path} {s₁ : Session} (hp : i.provision s = .ok () s₁)
    (h : i.Runs dir s paths entries rest t) : i.listFiles dir s₁ = .ok paths s₁ ∧
      i.Reaches paths.length (paths.zipIdx 1) s₁ entries rest t := by
  obtain ⟨s₂, hp', hl, hr⟩ := h
  rw [hp] at hp'
  cases hp'
  exact ⟨hl, hr⟩

theorem listFiles_of_list {names : List Name} (h : s.files.list i.here dir = .ok names) :
    i.listFiles dir s = .ok ((names.map dir.join).filter (s.files.isFile i.here)) s :=
  run_bind_of_ok (query_eq_ok_iff.2 ⟨h, rfl⟩)

theorem listFiles_ok {paths : List Path} (h : i.listFiles dir s = .ok paths s') :
    s' = s ∧ ∃ names, s.files.list i.here dir = .ok names ∧
      paths = (names.map dir.join).filter (s.files.isFile i.here) := by
  unfold listFiles at h
  obtain ⟨names, s₁, hq, h⟩ := bind_eq_ok_iff.1 h
  obtain ⟨hl, rfl⟩ := query_eq_ok_iff.1 hq
  cases h
  exact ⟨rfl, names, hl, rfl⟩

theorem listFiles_error_iff :
    i.listFiles dir s = .error e s' ↔
      ∃ cause, s.files.list i.here dir = .error cause ∧ e = .file .list dir cause ∧ s = s' := by
  unfold listFiles
  rw [bind_eq_error_iff, query_eq_error_iff]
  refine or_iff_left ?_
  rintro ⟨names, s₁, -, h⟩
  cases h

theorem run_installAll {paths : List Path} {s₁ : Session} (hp : i.provision s = .ok () s₁)
    (hl : i.listFiles dir s₁ = .ok paths s₁) :
    i.installAll dir s =
      match i.handleAll paths.length (paths.zipIdx 1) s₁ with
      | .ok entries s' => .ok { entries } s'
      | .error e s' => .error e s' := by
  unfold installAll
  rw [run_bind_of_ok hp, run_bind_of_ok hl]
  cases ha : i.handleAll paths.length (paths.zipIdx 1) s₁ with
  | ok entries s' => exact run_bind_of_ok ha
  | error e s' => exact run_bind_of_error ha

theorem installAll_ok_iff {report : Report} :
    i.installAll dir s = .ok report s' ↔ ∃ paths, i.Runs dir s paths report.entries [] s' := by
  unfold installAll Runs
  simp only [bind_eq_ok_iff]
  constructor
  · rintro ⟨_, s₁, hp, paths, s₂, hl, entries, s₃, ha, h⟩
    cases h
    obtain ⟨rfl, -⟩ := listFiles_ok hl
    exact ⟨paths, _, hp, hl, handleAll_ok_iff.1 ha⟩
  · rintro ⟨paths, s₁, hp, hl, hr⟩
    exact ⟨(), s₁, hp, paths, s₁, hl, report.entries, s', handleAll_ok_iff.2 hr, rfl⟩

theorem installAll_error_iff :
    i.installAll dir s = .error e s' ↔
      i.provision s = .error e s' ∨
      (∃ s₁, i.provision s = .ok () s₁ ∧ i.listFiles dir s₁ = .error e s') ∨
      ∃ paths entries path number rest t, i.Runs dir s paths entries ((path, number) :: rest) t ∧
        i.handleListed paths.length path number t = .error e s' := by
  unfold installAll Runs
  simp only [bind_eq_error_iff]
  constructor
  · rintro (h | ⟨_, s₁, hp, h | ⟨paths, s₂, hl, h | ⟨_, _, _, h⟩⟩⟩)
    · exact Or.inl h
    · exact Or.inr (Or.inl ⟨s₁, hp, h⟩)
    · obtain ⟨rfl, -⟩ := listFiles_ok hl
      obtain ⟨entries, path, number, rest, t, hr, he⟩ := handleAll_error_iff.1 h
      exact Or.inr (Or.inr ⟨paths, entries, path, number, rest, t, ⟨_, hp, hl, hr⟩, he⟩)
    · cases h
  · rintro (h | ⟨s₁, hp, h⟩ | ⟨paths, entries, path, number, rest, t, ⟨s₁, hp, hl, hr⟩, he⟩)
    · exact Or.inl h
    · exact Or.inr ⟨(), s₁, hp, Or.inl h⟩
    · refine Or.inr ⟨(), s₁, hp, Or.inr ⟨paths, s₁, hl, Or.inl ?_⟩⟩
      exact handleAll_error_iff.2 ⟨entries, path, number, rest, t, hr, he⟩

theorem runs_turn {paths : List Path} (h : i.Runs dir s paths entries ((path, number) :: rest) t)
    (hl : i.handleListed paths.length path number t = .ok entry t') :
    i.Runs dir s paths (entries ++ entry.toList) rest t' := by
  obtain ⟨s₁, hp, hf, hr⟩ := h
  exact ⟨s₁, hp, hf, .turn hr hl⟩

/-! ## The modules among the files -/

/-- The modules among the files that are counted. -/
def modulesAmong (i : Installer) (items : List (Path × Nat)) : List (Path × Nat) :=
  items.filter fun item => i.settings.kindOf item.1 ≠ .ignored

theorem modulesAmong_cons_of_ignored (h : i.settings.kindOf path = .ignored) :
    i.modulesAmong ((path, number) :: items) = i.modulesAmong items :=
  List.filter_cons_of_neg (by simp [h])

theorem modulesAmong_cons (h : i.settings.kindOf path ≠ .ignored) :
    i.modulesAmong ((path, number) :: items) = (path, number) :: i.modulesAmong items :=
  List.filter_cons_of_pos (by simp [h])

theorem modulesAmong_append (i : Installer) (items more : List (Path × Nat)) :
    i.modulesAmong (items ++ more) = i.modulesAmong items ++ i.modulesAmong more :=
  List.filter_append _ _

/-! ## One turn -/

/-- The session of a turn once the file has been announced. -/
def announcing (i : Installer) (total : Nat) (path : Path) (number : Nat) (s : Session) : Session :=
  if i.settings.kindOf path = .ignored then s
  else s.record [.printed (.numbered number total (listedName path))]

@[simp] theorem files_announcing (i : Installer) (total : Nat) (path : Path) (number : Nat)
    (s : Session) : (i.announcing total path number s).files = s.files := by
  unfold announcing
  split <;> rfl

/-- The session after a failure has been shown. -/
def showing (outcome : Outcome) (s : Session) : Session :=
  match outcome with
  | .failed e => s.record [.printed (.error e.message)]
  | _ => s

@[simp] theorem files_showing (outcome : Outcome) (s : Session) :
    (showing outcome s).files = s.files := by
  cases outcome <;> rfl

theorem run_handleListed (i : Installer) (total : Nat) (path : Path) (number : Nat) (s : Session) :
    i.handleListed total path number s =
      match i.handle path (i.settings.kindOf path) (i.announcing total path number s) with
      | .ok none s' => .ok none s'
      | .ok (some outcome) s' => .ok (some (listedName path, outcome)) (showing outcome s')
      | .error e s' => .error e s' := by
  by_cases hk : i.settings.kindOf path = .ignored
  · rw [announcing, if_pos hk, handleListed, hk]
    rfl
  have hsay : i.announcing total path number s =
      s.record [.printed (.numbered number total (listedName path))] := if_neg hk
  rw [hsay, handleListed]
  simp only [ne_eq, hk, not_false_eq_true, if_true]
  rw [run_bind_of_ok (run_print _ _)]
  cases hh : i.handle path (i.settings.kindOf path)
      (s.record [.printed (.numbered number total (listedName path))]) with
  | error e s' => exact run_bind_of_error hh
  | ok r s' =>
    refine (run_bind_of_ok hh).trans ?_
    cases r with
    | none => rfl
    | some outcome => cases outcome <;> rfl

end ModuleInstall.Installer
