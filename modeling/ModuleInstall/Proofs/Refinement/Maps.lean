import ModuleInstall.Proofs.Plain
import ModuleInstall.Proofs.Refinement.TwoMaps

/-! # The two maps of a file system -/

namespace ModuleInstall

open FileSystem

/-! ## The two maps of a file system -/

namespace TwoMaps

open Function (update)

variable {fs fs' : FileSystem} {D S : Location} {n : Name} {content : Bytes}

/-- What a file system holds in two directories. -/
def of (fs : FileSystem) (D S : Location) : TwoMaps where
  work n := fs.content? (n :: D)
  std n := fs.content? (n :: S)

/-- There is a directory of the name. -/
def blockedIn (fs : FileSystem) (S : Location) (n : Name) : Bool :=
  (fs.node? (n :: S)).any Node.isDirectory

theorem blockedIn_iff : blockedIn fs S n = true ↔ fs.IsDirectory (n :: S) := by
  unfold blockedIn IsDirectory
  rcases fs.node? (n :: S) with _ | ⟨_ | _ | _ | _⟩ <;> simp [Node.isDirectory]

theorem of_congr (h : ∀ l, fs'.node? l = fs.node? l) : of fs' D S = of fs D S := by
  ext1 <;> funext m <;> exact content?_of_node?_eq (h _)

theorem of_change_work {c : Option Bytes} (hne : D ≠ S) (hself : fs'.content? (n :: D) = c)
    (hothers : ∀ l, l ≠ n :: D → fs'.content? l = fs.content? l) :
    of fs' D S = { of fs D S with work := update (of fs D S).work n c } := by
  ext1 <;> funext m <;> dsimp only
  · by_cases hm : m = n
    · rw [hm, Function.update_self]
      exact hself
    · rw [Function.update_of_ne hm]
      exact hothers _ (by simp [hm])
  · exact hothers _ (by simp [Ne.symm hne])

theorem of_change_std {c : Option Bytes} (hne : D ≠ S) (hself : fs'.content? (n :: S) = c)
    (hothers : ∀ l, l ≠ n :: S → fs'.content? l = fs.content? l) :
    of fs' D S = { of fs D S with std := update (of fs D S).std n c } := by
  ext1 <;> funext m <;> dsimp only
  · exact hothers _ (by simp [hne])
  · by_cases hm : m = n
    · rw [hm, Function.update_self]
      exact hself
    · rw [Function.update_of_ne hm]
      exact hothers _ (by simp [hm])

end TwoMaps

/-! ## What stays -/

/-- The second file system is plain, has the same directories, and differs in two directories at
most. -/
structure Kept (D S : Location) (fs₀ fs : FileSystem) : Prop where
  plain : fs.Plain
  directories : ∀ l, fs.IsDirectory l ↔ fs₀.IsDirectory l
  elsewhere : ∀ l, (∀ n, l ≠ n :: D) → (∀ n, l ≠ n :: S) → fs.node? l = fs₀.node? l

namespace Kept

variable {D S dir : Location} {fs₀ fs fs' : FileSystem} {n : Name} {content : Bytes}

theorem refl (h : fs₀.Plain) : Kept D S fs₀ fs₀ := ⟨h, fun _ => Iff.rfl, fun _ _ _ => rfl⟩

theorem congr (hk : Kept D S fs₀ fs) (h : ∀ l, fs'.node? l = fs.node? l) : Kept D S fs₀ fs' where
  plain l node hx := hk.plain l node (h l ▸ hx)
  directories l := by
    rw [IsDirectory, h l]
    exact hk.directories l
  elsewhere l hD hS := (h l).trans (hk.elsewhere l hD hS)

theorem put (hk : Kept D S fs₀ fs) (hdir : dir = D ∨ dir = S) (h : Put (n :: dir) content fs fs') :
    Kept D S fs₀ fs' where
  plain := h.plain hk.plain
  directories l := (h.isDirectory_iff l).trans (hk.directories l)
  elsewhere l hD hS := by
    have hne : l ≠ n :: dir := by
      rcases hdir with rfl | rfl
      · exact hD n
      · exact hS n
    rw [h.others l hne, hk.elsewhere l hD hS]

theorem lost (hk : Kept D S fs₀ fs) (h : Lost (n :: D) fs fs') : Kept D S fs₀ fs' where
  plain := Lost.plain h hk.plain
  directories l := (Lost.isDirectory_iff h l).trans (hk.directories l)
  elsewhere l hD hS := by rw [h.others l (hD n), hk.elsewhere l hD hS]

theorem same (hk : Kept D S fs₀ fs) (h : fs₀.Plain) : SameDirectories fs₀ fs :=
  ⟨h.linkless, hk.plain.linkless, hk.directories⟩

end Kept

end ModuleInstall
