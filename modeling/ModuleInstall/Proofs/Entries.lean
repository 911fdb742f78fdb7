import ModuleInstall.Proofs.Calls
import ModuleInstall.Proofs.Edits

/-! # Entries that take a file -/

namespace ModuleInstall.FileSystem

variable {fs fs' : FileSystem} {here dir : Location} {p : Path} {n : Name} {content : Bytes}

/-- A file can be put under the name, if none is there. -/
structure Open (fs : FileSystem) (dir : Location) (n : Name) : Prop where
  proper : n.Proper
  free : fs.node? dir = some (.directory false)
  vacant : fs.node? (n :: dir) = none ∨ ∃ c x, fs.node? (n :: dir) = some (.file c x)

namespace Open

variable (h : fs.Open dir n)
include h

theorem isFixed_eq : fs.isFixed dir = false := by
  simp [isFixed, h.free]

theorem admits (hx : fs.node? (n :: dir) = none) : fs.Admits dir n :=
  ⟨h.proper, hasDirectory_iff.2 ⟨false, h.free⟩, hx⟩

theorem write (hw : fs.walk .followedUnlessSlash here p = .ok (.entry dir n false))
    (content : Bytes) :
    ∃ fs', fs.write here p content = .ok fs' ∧
      (Revision.only (n :: dir) (.fill content)).Make fs fs' := by
  simp only [Revision.make_only_iff]
  unfold FileSystem.write
  rcases h.vacant with hx | ⟨c, x, hx⟩
  · have hins : fs.Admits dir n ∧ fs.isFixed dir = false := ⟨h.admits hx, h.isFixed_eq⟩
    simp only [hw, hx, insert, if_pos hins]
    refine ⟨_, rfl, ?_, fun l hl => ?_⟩
    · rw [node?_add _ hins.1, if_pos rfl]
      rfl
    · rw [node?_add _ hins.1, if_neg hl]
  · simp only [hw, hx, h.isFixed_eq]
    refine ⟨_, rfl, ?_, fun l hl => ?_⟩
    · simp [node?_setContent, hx, Edit.apply]
    · simp [node?_setContent, hl]

theorem remove {x : Bool} (hw : fs.walk .kept here p = .ok (.entry dir n false))
    (hx : fs.node? (n :: dir) = some (.file content x)) :
    ∃ fs', fs.remove here p = .ok fs' ∧ (Revision.only (n :: dir) (.put none)).Make fs fs' := by
  have hlost := lost_erase hx rfl
  exact ⟨_, remove_of_not_directory hw hx rfl h.isFixed_eq, Revision.make_only_iff.2 ⟨hlost.gone, hlost.others⟩⟩

theorem exists_file (hm : (Revision.only (n :: dir) (.fill content)).Make fs fs') :
    ∃ x, fs'.node? (n :: dir) = some (.file content x) := by
  have hx := (Revision.make_only_iff.1 hm).1
  rcases h.vacant with hv | ⟨c, x, hv⟩
  · exact ⟨false, by rw [hx, hv, Edit.apply]⟩
  · exact ⟨x, by rw [hx, hv, Edit.apply, Node.withContent]⟩

end Open

/-- Why nothing can be written to an entry in whose directory nothing can be changed, or which is no
file. -/
def obstacle : Option Node → Errno
  | none => .noEntry
  | some (.file _ _) => .accessDenied
  | some (.directory _) => .isDirectory
  | some (.link _) => .tooManyLinks
  | some .fifo => .wouldBlock

theorem write_of_not_open (hw : fs.walk .followedUnlessSlash here p = .ok (.entry dir n false))
    (hd : fs.IsDirectory dir) (hn : n.Proper) (h : ¬ fs.Open dir n) (content : Bytes) :
    fs.write here p content = .error (.code (obstacle (fs.node? (n :: dir)))) := by
  have hfixed : (fs.node? (n :: dir) = none ∨ ∃ c x, fs.node? (n :: dir) = some (.file c x)) →
      fs.isFixed dir = true := by
    intro hv
    obtain ⟨fixed, hd⟩ := hd
    cases fixed with
    | true => simp [isFixed, hd]
    | false => exact absurd ⟨hn, hd, hv⟩ h
  unfold FileSystem.write
  rcases hx : fs.node? (n :: dir) with _ | ⟨_ | ⟨c, x⟩ | _ | _⟩ <;> simp only [hw, hx, obstacle]
  case none => simp [insert, hfixed (Or.inl hx)]
  case some.file => simp [hfixed (Or.inr ⟨c, x, hx⟩)]

end ModuleInstall.FileSystem
