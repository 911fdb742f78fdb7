import ModuleInstall.Proofs.Kinds
import ModuleInstall.Proofs.Listing
import ModuleInstall.Proofs.Turns

/-! # The order of the listed files -/

namespace ModuleInstall

open FileSystem

/-! ## Paths in order -/

/-- The root comes before `.`, that before `..`, and names come last, in the order of their bytes. -/
def Component.le : Component → Component → Bool
  | root, _ => true
  | here, root => false
  | here, _ => true
  | up, root => false
  | up, here => false
  | up, _ => true
  | name a, name b => Bytes.le a b
  | name _, _ => false

namespace Path

/-- The order by the first component that differs; a prefix comes first. -/
def leComponents : List Component → List Component → Bool
  | [], _ => true
  | _ :: _, [] => false
  | a :: as, b :: bs => if a = b then leComponents as bs else a.le b

def le (p q : Path) : Bool := leComponents p.components q.components

variable {p : Path} {n m : Bytes}

/-- The components of what stands before a slash. -/
def componentsBefore (q : Bytes) : List Component :=
  (if (pieces Bytes.slash q).1 = [] then .root else .ofPiece (pieces Bytes.slash q).1) ::
    ((pieces Bytes.slash q).2.filter fun piece => !silent piece).map Component.ofPiece

theorem components_append (q m : Bytes) :
    (Path.mk (q ++ Bytes.slash :: m)).components =
      componentsBefore q ++
        (((pieces Bytes.slash m).1 :: (pieces Bytes.slash m).2).filter fun piece =>
          !silent piece).map Component.ofPiece := by
  unfold components componentsBefore
  rw [pieces_append]
  simp only [List.filter_append, List.map_append]
  split <;> simp

theorem components_of_before {q : Bytes} (hp : p.bytes = q ∨ p.bytes = q ++ [Bytes.slash])
    (hne : p.bytes ≠ []) : p.components = componentsBefore q := by
  obtain ⟨bytes⟩ := p
  rcases hp with rfl | rfl
  · unfold components componentsBefore
    by_cases hf : (pieces Bytes.slash bytes).1 = []
    · have hroot := (pieces_fst_eq_nil_iff Bytes.slash hne).1 hf
      obtain ⟨b, rest, rfl⟩ := List.exists_cons_of_ne_nil hne
      obtain rfl : b = Bytes.slash := Option.some.inj hroot
      simp [pieces]
    · simp [hf]
  · rw [components_append]
    simp [pieces, silent]

theorem components_join (p : Path) (h : IsPiece n) :
    (p.join n).components = p.components ++ [.name n] := by
  have hn : pieces Bytes.slash n = (n, []) := pieces_of_not_mem h.no_slash
  by_cases hp : p.bytes = []
  · obtain ⟨bytes⟩ := p
    obtain rfl : bytes = [] := hp
    rw [join_of_empty h.isRelative]
    simp [components, hn, h.ne_nil, h.component, pieces]
  · obtain ⟨q, hq, hor⟩ := exists_join h.isRelative hp
    rw [hq, components_append, components_of_before hor hp, hn]
    simp [h.silent_eq, h.component]

theorem leComponents_append (cs as bs : List Component) :
    leComponents (cs ++ as) (cs ++ bs) = leComponents as bs := by
  induction cs with
  | nil => rfl
  | cons c cs ih => simpa [leComponents] using ih

theorem le_join (p : Path) (hn : IsPiece n) (hm : IsPiece m) :
    (p.join n).le (p.join m) = Bytes.le n m := by
  rw [le, components_join p hn, components_join p hm, leComponents_append]
  by_cases h : n = m
  · have := Bytes.le_total m m
    simp_all [leComponents]
  · simp [leComponents, h, Component.le]

end Path

/-! ## The listing -/

namespace Installer

variable {i : Installer} {dir : Path} {s s₁ : Session} {loc : Location} {paths : List Path}
  {fs : FileSystem}

theorem exists_directoryAt_of_listFiles (hl : i.listFiles dir s = .ok paths s₁) :
    ∃ loc, s.files.directoryAt i.here dir = .ok loc := by
  obtain ⟨-, names, hnames, -⟩ := listFiles_ok hl
  obtain ⟨loc, hd, -⟩ := list_eq_ok_iff.1 hnames
  exact ⟨loc, hd⟩

theorem listFiles_of_perm (hl : i.listFiles dir s = .ok paths s₁)
    (hd : s.files.directoryAt i.here dir = .ok loc) {yielded : List Name}
    (hy : yielded.Perm (s.files.names loc)) :
    paths = ((yielded.map dir.join).filter (s.files.isFile i.here)).mergeSort Path.le := by
  obtain ⟨-, names, hnames, rfl⟩ := listFiles_ok hl
  obtain ⟨loc', hd', rfl⟩ := list_eq_ok_iff.1 hnames
  obtain rfl : loc = loc' := Except.ok.inj (hd.symm.trans hd')
  have hpiece : ∀ n ∈ yielded, IsPiece n := by
    intro n hn
    obtain ⟨node, hx⟩ := mem_names_iff.1 (hy.mem_iff.1 hn)
    exact (proper_of_node? hx).isPiece
  rw [List.filter_map, List.filter_map]
  have hle : ∀ n ∈ yielded.filter (s.files.isFile i.here ∘ dir.join),
      ∀ m ∈ yielded.filter (s.files.isFile i.here ∘ dir.join),
      Bytes.le n m = (dir.join n).le (dir.join m) := fun n hn m hm =>
    (Path.le_join dir (hpiece n (List.mem_filter.1 hn).1)
      (hpiece m (List.mem_filter.1 hm).1)).symm
  rw [← List.map_mergeSort hle]
  congr 1
  -- Both lists hold the same names, and there is only one way to put them in order.
  have hsorted := (List.pairwise_mergeSort Bytes.le_trans Bytes.le_total
    (s.files.names loc)).filter (s.files.isFile i.here ∘ dir.join)
  have hsorted' := List.pairwise_mergeSort Bytes.le_trans Bytes.le_total
    (yielded.filter (s.files.isFile i.here ∘ dir.join))
  refine List.Perm.eq_of_pairwise (fun _ _ _ _ => Bytes.le_antisymm) hsorted hsorted' ?_
  exact (((List.mergeSort_perm _ _).trans hy.symm).filter _).trans (List.mergeSort_perm _ _).symm

/-! ## The modules -/

/-- The names of the modules in a directory, in order. -/
def modules (i : Installer) (dir : Path) (fs : FileSystem) (loc : Location) : List Name :=
  ((fs.names loc).mergeSort Bytes.le).filter fun n =>
    fs.isFile i.here (dir.join n) && i.settings.kindOf (dir.join n) ≠ .ignored

theorem mem_modules_iff {n : Name} :
    n ∈ i.modules dir fs loc ↔ n ∈ fs.names loc ∧ fs.isFile i.here (dir.join n) = true ∧
      i.settings.kindOf (dir.join n) ≠ .ignored := by
  simp [modules, List.mem_mergeSort]

theorem isPiece_of_mem_modules {n : Name} (h : n ∈ i.modules dir fs loc) : IsPiece n := by
  obtain ⟨node, hx⟩ := mem_names_iff.1 (mem_modules_iff.1 h).1
  exact (proper_of_node? hx).isPiece

theorem pairwise_modules (i : Installer) (dir : Path) (fs : FileSystem) (loc : Location) :
    (i.modules dir fs loc).Pairwise fun a b => Bytes.le a b = true ∧ a ≠ b := by
  refine List.Pairwise.filter _ ?_
  have hs := List.pairwise_mergeSort Bytes.le_trans Bytes.le_total (fs.names loc)
  have hn : ((fs.names loc).mergeSort Bytes.le).Nodup :=
    (List.mergeSort_perm _ _).nodup_iff.2 (nodup_names fs loc)
  exact hs.and hn

theorem filter_listFiles (hl : i.listFiles dir s = .ok paths s₁)
    (hd : s.files.directoryAt i.here dir = .ok loc) :
    paths.filter (i.settings.kindOf · ≠ .ignored) = (i.modules dir s.files loc).map dir.join := by
  obtain ⟨-, names, hnames, rfl⟩ := listFiles_ok hl
  obtain ⟨loc', hd', rfl⟩ := list_eq_ok_iff.1 hnames
  obtain rfl : loc = loc' := Except.ok.inj (hd.symm.trans hd')
  rw [List.filter_map, List.filter_map, List.filter_filter, modules]
  congr 1
  exact List.filter_congr fun n _ => Bool.and_comm _ _

end Installer

end ModuleInstall
