/-!
# Lists cut at a separator

Paths are cut at slashes, names at dots and compiler output at line ends.
-/

namespace ModuleInstall

section Separator

variable {α : Type} [DecidableEq α]

/-! ## Every separator -/

/-- The pieces between the separators: the first one, and those after it. -/
def pieces (sep : α) : List α → List α × List (List α)
  | [] => ([], [])
  | a :: rest =>
    let (first, others) := pieces sep rest
    if a = sep then ([], first :: others) else (a :: first, others)

/-- Puts pieces together again, a separator before each but the first. -/
def glue (sep : α) (first : List α) (others : List (List α)) : List α :=
  first ++ others.flatMap (sep :: ·)

theorem glue_pieces (sep : α) (l : List α) : glue sep (pieces sep l).1 (pieces sep l).2 = l := by
  induction l with
  | nil => rfl
  | cons a rest ih =>
    by_cases h : a = sep
    · simpa [pieces, glue, h] using ih
    · simpa [pieces, glue, h] using ih

theorem not_mem_pieces (sep : α) (l : List α) :
    sep ∉ (pieces sep l).1 ∧ ∀ p ∈ (pieces sep l).2, sep ∉ p := by
  induction l with
  | nil => simp [pieces]
  | cons a rest ih =>
    by_cases h : a = sep
    · simpa [pieces, h] using ih
    · simpa [pieces, h, Ne.symm h] using ih

/-! ## The first separator -/

/-- What stands before the first separator, and what stands after it, if there is one. -/
def splitAtFirst (sep : α) (l : List α) : List α × Option (List α) :=
  match pieces sep l with
  | (first, []) => (first, none)
  | (first, next :: others) => (first, some (glue sep next others))

theorem splitAtFirst_append {sep : α} {before : List α} (h : sep ∉ before) (after : List α) :
    splitAtFirst sep (before ++ sep :: after) = (before, some after) := by
  have cut : ∀ l : List α, sep ∉ l →
      pieces sep (l ++ sep :: after) = (l, (pieces sep after).1 :: (pieces sep after).2) := by
    intro l hl
    induction l with
    | nil => simp [pieces]
    | cons a rest ih =>
      simp only [List.mem_cons, not_or] at hl
      simp [pieces, ih hl.2, Ne.symm hl.1]
  simp [splitAtFirst, cut before h, glue_pieces]

/-! ## The last separator -/

/-- What stands before and after the last separator, if there is one. -/
def splitAtLast (sep : α) : List α → Option (List α × List α)
  | [] => none
  | a :: rest =>
    match splitAtLast sep rest with
    | some (stem, tail) => some (a :: stem, tail)
    | none => if a = sep then some ([], rest) else none

theorem splitAtLast_eq_none_iff {sep : α} {l : List α} : splitAtLast sep l = none ↔ sep ∉ l := by
  induction l with
  | nil => simp [splitAtLast]
  | cons a rest ih =>
    cases h : splitAtLast sep rest with
    | some p =>
      have : sep ∈ rest := by
        apply Decidable.byContradiction
        intro hn
        simp [ih.2 hn] at h
      simp [splitAtLast, h, this]
    | none =>
      have hr : sep ∉ rest := ih.1 h
      by_cases ha : a = sep
      · simp [splitAtLast, h, ha]
      · simp [splitAtLast, h, ha, hr, Ne.symm ha]

theorem splitAtLast_append {sep : α} (stem : List α) {tail : List α} (h : sep ∉ tail) :
    splitAtLast sep (stem ++ sep :: tail) = some (stem, tail) := by
  induction stem with
  | nil => simp [splitAtLast, splitAtLast_eq_none_iff.2 h]
  | cons a rest ih => simp [splitAtLast, ih]

theorem splitAtLast_eq_some {sep : α} {l stem tail : List α}
    (h : splitAtLast sep l = some (stem, tail)) : l = stem ++ sep :: tail ∧ sep ∉ tail := by
  induction l generalizing stem with
  | nil => simp [splitAtLast] at h
  | cons a rest ih =>
    cases hr : splitAtLast sep rest with
    | some p =>
      obtain ⟨s, t⟩ := p
      simp only [splitAtLast, hr, Option.some.injEq, Prod.mk.injEq] at h
      obtain ⟨rfl, rfl⟩ := h
      have := ih hr
      simp [this.1, this.2]
    | none =>
      have hn := splitAtLast_eq_none_iff.1 hr
      simp only [splitAtLast, hr] at h
      split at h
      · rename_i ha
        simp only [Option.some.injEq, Prod.mk.injEq] at h
        obtain ⟨rfl, rfl⟩ := h
        simp [ha, hn]
      · simp at h

end Separator

/-! ## The end of a list -/

/-- The list without the elements at its end that satisfy `p`. -/
def dropTrailing {α : Type} (p : α → Bool) : List α → List α
  | [] => []
  | a :: rest =>
    match dropTrailing p rest with
    | [] => if p a then [] else [a]
    | b :: kept => a :: b :: kept

end ModuleInstall
