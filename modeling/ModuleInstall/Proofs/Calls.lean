import ModuleInstall.FileSystem.Change
import ModuleInstall.Proofs.Walk.Filling

/-! # What the calls do -/

namespace ModuleInstall.FileSystem

variable {fs fs' : FileSystem} {last : LastLink} {here : Location} {p : Path} {content : Bytes}
  {node : Node}

/-! ## Questions -/

theorem nodeAt_eq_ok_iff {place : Place} :
    fs.nodeAt place = .ok node ↔ fs.node? place.location = some node ∧
      ∀ dir n, place = .entry dir n true → node.isDirectory = true := by
  unfold nodeAt
  rcases place with d | ⟨dir, n, _ | _⟩ <;> cases hx : fs.node? (Place.location _) with
  | none => simp
  | some x => by_cases hd : x.isDirectory <;> simp [hd] <;> grind

theorem find_eq_ok_iff {loc : Location} :
    fs.find last here p = .ok (loc, node) ↔
      ∃ place, fs.walk last here p = .ok place ∧ place.location = loc ∧ fs.nodeAt place = .ok node := by
  unfold find
  cases hw : fs.walk last here p with
  | error e => simp
  | ok place => cases hn : fs.nodeAt place <;> simp [Except.map, hn, and_comm]

theorem stat_eq_ok_iff :
    fs.stat here p = .ok node ↔
      ∃ place, fs.walk .followed here p = .ok place ∧ fs.nodeAt place = .ok node := by
  unfold stat find
  cases hw : fs.walk .followed here p with
  | error e => simp [Except.map]
  | ok place => cases hn : fs.nodeAt place <;> simp [Except.map, hn]

theorem map_find_of_walk {place : Place} (h : fs.walk last here p = .ok place) :
    (fs.find last here p).map (·.2) = fs.nodeAt place := by
  unfold find
  rw [h]
  cases hn : fs.nodeAt place <;> simp [Except.map, hn]

theorem nodeAt_error {place : Place} {cause : SystemError} (h : fs.nodeAt place = .error cause) :
    ∃ errno ∈ walkErrors, cause = .code errno := by
  unfold nodeAt at h
  repeat' split at h
  all_goals cases h
  all_goals exact ⟨_, by simp [walkErrors], rfl⟩

theorem walk_error {cause : SystemError} (h : fs.walk last here p = .error cause) :
    p.route = .error cause ∨ ∃ errno ∈ walkErrors, cause = .code errno := by
  cases hr : p.route with
  | error e =>
    rw [walk, hr] at h
    cases h
    exact .inl rfl
  | ok route =>
    rw [walk_of_route hr] at h
    cases hf : fs.walkFrom last maxLinks route.slash (if route.fromRoot then [] else here)
        route.steps with
    | ok place => simp [hf] at h
    | error errno =>
      rw [hf] at h
      cases h
      exact .inr ⟨errno, mem_walkErrors_of_walkFrom hf, rfl⟩

theorem stat_error {cause : SystemError} (h : fs.stat here p = .error cause) :
    p.route = .error cause ∨ ∃ errno ∈ walkErrors, cause = .code errno := by
  cases hw : fs.walk .followed here p with
  | ok place =>
    rw [stat, map_find_of_walk hw] at h
    exact .inr (nodeAt_error h)
  | error cause' =>
    rw [stat, find, hw] at h
    cases h
    exact walk_error hw

theorem nodeAt_entry (fs : FileSystem) (dir : Location) (n : Name) :
    fs.nodeAt (.entry dir n false) =
      match fs.node? (n :: dir) with
      | some node => .ok node
      | none => .error (.code .noEntry) := by
  simp only [nodeAt, Place.location]
  cases fs.node? (n :: dir) <;> rfl

theorem read_eq_ok_iff :
    fs.read here p = .ok content ↔ ∃ executable, fs.stat here p = .ok (.file content executable) := by
  unfold read
  rcases fs.stat here p with e | ⟨_ | _ | _ | _⟩ <;> simp

theorem not_wouldBlock {cause : SystemError}
    (h : p.route = .error cause ∨ ∃ errno ∈ walkErrors, cause = .code errno) :
    cause ≠ .code .wouldBlock := by
  rintro rfl
  rcases h with hr | ⟨errno, hmem, he⟩
  · unfold Path.route at hr
    repeat' split at hr
    all_goals cases hr
  · cases he
    simp [walkErrors] at hmem

/-- A pipe is all that a read does not come back from. -/
theorem read_eq_wouldBlock_iff :
    fs.read here p = .error (.code .wouldBlock) ↔ fs.stat here p = .ok .fifo := by
  unfold read
  cases hst : fs.stat here p with
  | ok node => cases node <;> simp
  | error cause => simp [not_wouldBlock (stat_error hst)]

theorem isFile_of_long (h : Route.maxLength ≤ p.bytes.length) : fs.isFile here p = false := by
  unfold isFile stat find walk
  cases hr : p.route with
  | error e => rfl
  | ok route =>
    exfalso
    unfold Path.route at hr
    rw [if_pos h] at hr
    repeat' split at hr
    all_goals cases hr

theorem length_lt_of_read (h : fs.read here p = .ok content) :
    p.bytes.length < Route.maxLength := by
  refine Nat.lt_of_not_le fun hlong => ?_
  obtain ⟨executable, hst⟩ := read_eq_ok_iff.1 h
  have hfile : fs.isFile here p = true := by rw [isFile, hst]
  rw [isFile_of_long hlong] at hfile
  cases hfile

/-! ## Changes -/

theorem insert_spec {dir : Location} {n : Name} (h : fs.insert dir n node = .ok fs') :
    fs.isFixed dir = false ∧ fs.node? (n :: dir) = none ∧ fs'.node? (n :: dir) = some node ∧
      ∀ l, l ≠ n :: dir → fs'.node? l = fs.node? l := by
  unfold insert at h
  split at h
  · rename_i ha
    cases h
    refine ⟨ha.2, ha.1.2.2, ?_, fun l hl => ?_⟩
    · rw [node?_add node ha.1, if_pos rfl]
    · rw [node?_add node ha.1, if_neg hl]
  · simp at h

theorem insert_ne_wouldBlock {dir : Location} {n : Name} :
    fs.insert dir n node ≠ .error (.code .wouldBlock) := by
  unfold insert
  split <;> simp

/-- A pipe is all that a write does not come back from. -/
theorem write_eq_wouldBlock_iff :
    fs.write here p content = .error (.code .wouldBlock) ↔
      ∃ dir n, fs.walk .followedUnlessSlash here p = .ok (.entry dir n false) ∧
        fs.node? (n :: dir) = some .fifo := by
  constructor
  · intro h
    unfold write at h
    split at h
    case h_1 cause hw =>
      cases h
      exact absurd rfl (not_wouldBlock (walk_error hw))
    case h_4 dir n hw =>
      split at h
      case h_1 => exact absurd h insert_ne_wouldBlock
      case h_2 => split at h <;> cases h
      case h_5 hx => exact ⟨dir, n, hw, hx⟩
      all_goals cases h
    all_goals cases h
  · rintro ⟨dir, n, hw, hx⟩
    simp only [write, hw, hx]

theorem write_spec (h : fs.write here p content = .ok fs') :
    ∃ dir n executable, fs.walk .followed here p = .ok (.entry dir n false) ∧
      fs.isFixed dir = false ∧
      (fs.node? (n :: dir) = none ∨ ∃ c x, fs.node? (n :: dir) = some (.file c x)) ∧
      fs'.node? (n :: dir) = some (.file content executable) ∧
      ∀ l, l ≠ n :: dir → fs'.node? l = fs.node? l := by
  unfold write at h
  split at h
  · simp at h
  · simp at h
  · simp at h
  rename_i dir n hw
  have hw := walk_of_unlessSlash hw
  rcases hx : fs.node? (n :: dir) with _ | ⟨_ | ⟨c, x⟩ | _ | _⟩ <;> simp only [hx] at h
  case none =>
    obtain ⟨h₁, -, h₂, h₃⟩ := insert_spec h
    exact ⟨dir, n, false, hw, h₁, Or.inl hx, h₂, h₃⟩
  case some.file =>
    split at h
    · simp at h
    rename_i hfix
    cases h
    refine ⟨dir, n, x, hw, by simpa using hfix, Or.inr ⟨c, x, hx⟩, ?_, fun l hl => ?_⟩
    · simp [node?_setContent, hx, Node.withContent]
    · simp [node?_setContent, hl]
  all_goals simp at h

theorem remove_spec (h : fs.remove here p = .ok fs') :
    ∃ dir n node, fs.walk .kept here p = .ok (.entry dir n false) ∧ fs.isFixed dir = false ∧
      fs.node? (n :: dir) = some node ∧ node.isDirectory = false ∧ fs' = fs.erase (n :: dir) := by
  unfold remove at h
  split at h
  · simp at h
  · simp at h
  rename_i dir n slash hw
  split at h
  · simp at h
  rename_i node hx
  repeat' split at h
  all_goals cases h
  exact ⟨dir, n, node, by simp_all, by simp_all, hx, by simp_all, rfl⟩

theorem remove_of_not_directory {dir : Location} {n : Name}
    (hw : fs.walk .kept here p = .ok (.entry dir n false))
    (hx : fs.node? (n :: dir) = some node) (hd : node.isDirectory = false)
    (hf : fs.isFixed dir = false) : fs.remove here p = .ok (fs.erase (n :: dir)) := by
  unfold remove
  simp [hw, hx, hd, hf]

theorem create_spec (h : fs.create here p node = .ok fs') :
    ∃ dir n slash, fs.walk .kept here p = .ok (.entry dir n slash) ∧ fs.isFixed dir = false ∧
      fs.node? (n :: dir) = none ∧ fs'.node? (n :: dir) = some node ∧
      ∀ l, l ≠ n :: dir → fs'.node? l = fs.node? l := by
  unfold create at h
  split at h
  · simp at h
  · simp at h
  rename_i dir n slash hw
  repeat' split at h
  · simp at h
  · simp at h
  · obtain ⟨h₁, h₂, h₃, h₄⟩ := insert_spec h
    exact ⟨dir, n, slash, hw, h₁, h₂, h₃, h₄⟩

theorem makeDirectory_of_admits {dir : Location} {n : Name} {slash : Bool}
    (hw : fs.walk .kept here p = .ok (.entry dir n slash)) (ha : fs.Admits dir n)
    (hf : fs.isFixed dir = false) :
    fs.makeDirectory here p = .ok (fs.add dir n (.directory false)) := by
  unfold makeDirectory create insert
  simp [hw, ha.2.2, ha, hf, Node.isDirectory]

theorem filled_of_file {dir : Location} {n : Name} {executable : Bool}
    (hwas : fs.node? (n :: dir) = none ∨ ∃ c x, fs.node? (n :: dir) = some (.file c x))
    (hnow : fs'.node? (n :: dir) = some (.file content executable))
    (hothers : ∀ l, l ≠ n :: dir → fs'.node? l = fs.node? l) : Filled (n :: dir) fs fs' where
  noDirectory := by rcases hwas with h | ⟨c, x, h⟩ <;> simp [h]
  noLink := by rcases hwas with h | ⟨c, x, h⟩ <;> simp [h]
  noNewLink := by simp [hnow]
  others := hothers

theorem walk_of_write {q : Path} {place : Place} (h : fs.write here p content = .ok fs')
    (hq : fs.walk last here q = .ok place) : fs'.walk last here q = .ok place := by
  obtain ⟨dir, n, executable, -, -, hwas, hnow, hothers⟩ := write_spec h
  exact (walk_of_filled (filled_of_file hwas hnow hothers) hq).1

theorem read_of_write (h : fs.write here p content = .ok fs') : fs'.read here p = .ok content := by
  obtain ⟨dir, n, executable, hw, -, -, hnow, -⟩ := write_spec h
  refine read_eq_ok_iff.2 ⟨executable, stat_eq_ok_iff.2 ⟨_, walk_of_write h hw, ?_⟩⟩
  exact nodeAt_eq_ok_iff.2 ⟨hnow, by simp⟩

theorem find_of_remove (h : fs.remove here p = .ok fs') (last : LastLink) :
    fs'.find last here p = .error (.code .noEntry) := by
  obtain ⟨dir, n, node, hw, -, hx, hd, rfl⟩ := remove_spec h
  have hp : last.passesOver false = false := by cases last <;> rfl
  exact find_of_lost (lost_erase hx hd) (walk_of_kept hw hp).1

end ModuleInstall.FileSystem
