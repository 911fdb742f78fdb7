import ModuleInstall.Proofs.Calls

/-! # The names in a directory -/

namespace ModuleInstall

namespace Bytes

theorem le_total (a b : Bytes) : (le a b || le b a) = true := by
  induction a generalizing b with
  | nil => rfl
  | cons x xs ih =>
    cases b with
    | nil => rfl
    | cons y ys =>
      have := ih ys
      simp only [le, Bool.or_eq_true, Bool.and_eq_true, decide_eq_true_eq, beq_iff_eq] at this ⊢
      by_cases hxy : x = y
      · simpa [hxy] using this
      · rcases UInt8.lt_or_lt_of_ne hxy with h | h
        · exact Or.inl (Or.inl h)
        · exact Or.inr (Or.inl h)

theorem le_trans (a b c : Bytes) (hab : le a b = true) (hbc : le b c = true) : le a c = true := by
  induction a generalizing b c with
  | nil => rfl
  | cons x xs ih =>
    cases b with
    | nil => cases hab
    | cons y ys =>
      cases c with
      | nil => cases hbc
      | cons z zs =>
        simp only [le, Bool.or_eq_true, Bool.and_eq_true, decide_eq_true_eq, beq_iff_eq] at hab hbc ⊢
        rcases hab with hxy | ⟨rfl, hab⟩
        · rcases hbc with hyz | ⟨rfl, -⟩
          · exact Or.inl (UInt8.lt_trans hxy hyz)
          · exact Or.inl hxy
        · rcases hbc with hyz | ⟨rfl, hbc⟩
          · exact Or.inl hyz
          · exact Or.inr ⟨rfl, ih ys zs hab hbc⟩

theorem le_antisymm {a b : Bytes} (hab : le a b = true) (hba : le b a = true) : a = b := by
  induction a generalizing b with
  | nil =>
    cases b with
    | nil => rfl
    | cons y ys => cases hba
  | cons x xs ih =>
    cases b with
    | nil => cases hab
    | cons y ys =>
      simp only [le, Bool.or_eq_true, Bool.and_eq_true, decide_eq_true_eq, beq_iff_eq] at hab hba
      rcases hab with hxy | ⟨rfl, hab⟩
      · rcases hba with hyx | ⟨rfl, -⟩
        · exact absurd hyx (UInt8.lt_asymm hxy)
        · exact absurd hxy (UInt8.lt_irrefl _)
      · rcases hba with hxx | ⟨-, hba⟩
        · exact absurd hxx (UInt8.lt_irrefl _)
        · rw [ih hab hba]

end Bytes

namespace FileSystem

variable {fs : FileSystem} {here dir loc : Location} {p : Path} {n : Name}

theorem mem_nodes_of_node? {node : Node} (h : fs.node? (n :: dir) = some node) :
    (n :: dir, node) ∈ fs.nodes := by
  obtain ⟨l₁, l₂, heq, -⟩ := List.lookup_eq_some_iff.1 (node?_cons fs n dir ▸ h)
  rw [heq]
  simp

theorem proper_of_node? {node : Node} (h : fs.node? (n :: dir) = some node) : n.Proper :=
  (fs.sound.proper _ (mem_nodes_of_node? h)).2 n (by simp)

theorem mem_names_iff : n ∈ fs.names dir ↔ ∃ node, fs.node? (n :: dir) = some node := by
  unfold names
  rw [List.mem_filterMap]
  constructor
  · rintro ⟨⟨l, node⟩, hm, he⟩
    obtain rfl : l = n :: dir := by
      cases l with
      | nil => cases he
      | cons m d => grind
    cases hx : fs.node? (n :: dir) with
    | some node' => exact ⟨node', rfl⟩
    | none =>
      have := Nodes.get?_eq_none_iff.1 (node?_cons fs n dir ▸ hx)
      exact absurd (List.mem_map_of_mem hm) this
  · rintro ⟨node, h⟩
    exact ⟨(n :: dir, node), mem_nodes_of_node? h, by simp⟩

theorem nodup_names (fs : FileSystem) (dir : Location) : (fs.names dir).Nodup := by
  have hkeys := fs.sound.nodup
  unfold names
  rw [List.Nodup, List.pairwise_map] at hkeys
  rw [List.Nodup, List.pairwise_filterMap]
  refine hkeys.imp ?_
  intro e e' hne n hn m hm
  rintro rfl
  apply hne
  grind

theorem directoryAt_eq_ok_iff :
    fs.directoryAt here p = .ok loc ↔ ∃ place, fs.walk .followed here p = .ok place ∧
      place.location = loc ∧ fs.IsDirectory loc := by
  unfold directoryAt
  constructor
  · intro h
    split at h
    · rename_i l fixed hf
      cases h
      obtain ⟨place, hw, rfl, hn⟩ := find_eq_ok_iff.1 hf
      exact ⟨place, hw, rfl, fixed, (nodeAt_eq_ok_iff.1 hn).1⟩
    · cases h
    · cases h
  · rintro ⟨place, hw, rfl, fixed, hx⟩
    have hf : fs.find .followed here p = .ok (place.location, .directory fixed) :=
      find_eq_ok_iff.2 ⟨place, hw, rfl, nodeAt_eq_ok_iff.2 ⟨hx, fun _ _ _ => rfl⟩⟩
    rw [hf]

theorem list_eq_ok_iff {names : List Name} :
    fs.list here p = .ok names ↔ ∃ loc, fs.directoryAt here p = .ok loc ∧
      names = (fs.names loc).mergeSort Bytes.le := by
  unfold list
  cases fs.directoryAt here p <;> simp [Except.map, eq_comm]

theorem list_of_sorted (h : fs.directoryAt here p = .ok loc)
    (hs : (fs.names loc).Pairwise fun a b => Bytes.le a b = true) :
    fs.list here p = .ok (fs.names loc) :=
  list_eq_ok_iff.2 ⟨loc, h, (List.mergeSort_of_pairwise hs).symm⟩

theorem pairwise_of_list {names : List Name} (h : fs.list here p = .ok names) :
    names.Pairwise fun a b => Bytes.le a b = true ∧ a ≠ b := by
  obtain ⟨loc, -, rfl⟩ := list_eq_ok_iff.1 h
  have hs := List.pairwise_mergeSort Bytes.le_trans Bytes.le_total (fs.names loc)
  have hn : ((fs.names loc).mergeSort Bytes.le).Nodup :=
    (List.mergeSort_perm _ _).nodup_iff.2 (nodup_names fs loc)
  exact hs.and hn

theorem mem_list_iff {names : List Name} (hd : fs.directoryAt here p = .ok loc)
    (h : fs.list here p = .ok names) : n ∈ names ↔ ∃ node, fs.node? (n :: loc) = some node := by
  obtain ⟨loc', hd', rfl⟩ := list_eq_ok_iff.1 h
  rw [hd] at hd'
  cases hd'
  rw [List.mem_mergeSort, mem_names_iff]

end FileSystem

end ModuleInstall
