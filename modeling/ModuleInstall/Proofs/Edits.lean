import ModuleInstall.Proofs.IgnoredEvents

/-!
# Edits

What an installation does to one entry is to leave it, to write a file, or to put something in its
place. An edit made twice comes to the same as made once.
-/

namespace ModuleInstall

open ModuleInstall.Action

inductive Edit where
  | keep
  /-- Write the content. A file that is there keeps all the rest. -/
  | fill (content : Bytes)
  | put (node : Option Node)

namespace Edit

def apply : Edit → Option Node → Option Node
  | keep, node => node
  | fill content, none => some (.file content false)
  | fill content, some node => some (node.withContent content)
  | put node, _ => node

/-- The first edit and then the second. -/
def andThen : Edit → Edit → Edit
  | e, keep => e
  | put node, fill content => put ((fill content).apply node)
  | _, fill content => fill content
  | _, put node => put node

theorem apply_andThen (e e' : Edit) (node : Option Node) :
    (e.andThen e').apply node = e'.apply (e.apply node) := by
  cases e' with
  | keep => cases e <;> rfl
  | put node' => cases e <;> rfl
  | fill content =>
    cases e with
    | keep => rfl
    | put node' => rfl
    | fill content' => rcases node with _ | ⟨_ | _ | _ | _⟩ <;> rfl

theorem apply_apply (e : Edit) (node : Option Node) : e.apply (e.apply node) = e.apply node := by
  cases e with
  | keep => rfl
  | put node' => rfl
  | fill content => rcases node with _ | ⟨_ | _ | _ | _⟩ <;> rfl

end Edit

/-- An edit for each location. -/
abbrev Revision := Location → Edit

namespace Revision

variable {μ ν : Revision} {fs fs' fs'' : FileSystem}

def none : Revision := fun _ => .keep

def only (spot : Location) (e : Edit) : Revision := fun l => if l = spot then e else .keep

def andThen (μ ν : Revision) : Revision := fun l => (μ l).andThen (ν l)

/-- The second file system is the first with the edits made. -/
def Make (μ : Revision) (fs fs' : FileSystem) : Prop := ∀ l, fs'.node? l = (μ l).apply (fs.node? l)

theorem make_none (fs : FileSystem) : none.Make fs fs := fun _ => rfl

theorem Make.andThen (h : μ.Make fs fs') (h' : ν.Make fs' fs'') : (μ.andThen ν).Make fs fs'' := by
  intro l
  rw [Revision.andThen, Edit.apply_andThen, ← h l, h' l]

theorem Make.again (h : μ.Make fs fs') (h' : μ.Make fs' fs'') (l : Location) :
    fs''.node? l = fs'.node? l := by
  rw [h' l, h l, Edit.apply_apply]

theorem make_only_iff {spot : Location} {e : Edit} :
    (only spot e).Make fs fs' ↔
      fs'.node? spot = e.apply (fs.node? spot) ∧ ∀ l, l ≠ spot → fs'.node? l = fs.node? l := by
  constructor
  · intro h
    refine ⟨?_, fun l hl => ?_⟩
    · rw [h spot, only, if_pos rfl]
    · rw [h l, only, if_neg hl, Edit.apply]
  · rintro ⟨hspot, hothers⟩ l
    by_cases hl : l = spot
    · rw [only, if_pos hl, hl, hspot]
    · rw [only, if_neg hl, hothers l hl, Edit.apply]

end Revision

/-! ## Actions that make the same edits -/

namespace Action

variable {ε δ α β : Type} {P P' Q Q' R : FileSystem → Prop} {x : Action ε α} {f : α → Action ε β}
  {a : α} {e : ε} {r : Except ε α} {r' : Except ε β} {μ ν : Revision} {s t : Session}

/-- From all files of one kind the action ends in the same way, with the same edits made, and the
files are of another kind then. -/
def Uniform (P : FileSystem → Prop) (x : Action ε α) (r : Except ε α) (μ : Revision)
    (Q : FileSystem → Prop) : Prop :=
  ∀ t, P t.files → ∃ files, resultAndFiles (x t) = (r, files) ∧ μ.Make t.files files ∧ Q files

namespace Uniform

theorem pure (a : α) : Uniform P (Pure.pure a : Action ε α) (.ok a) .none P :=
  fun t ht => ⟨t.files, rfl, Revision.make_none _, ht⟩

theorem bind (hx : Uniform P x (.ok a) μ Q) (hf : Uniform Q (f a) r' ν R) :
    Uniform P (x >>= f) r' (μ.andThen ν) R := by
  intro t ht
  obtain ⟨_, hup, hμ, hq⟩ := hx t ht
  obtain ⟨t₁, hx₁, rfl⟩ := resultAndFiles_eq_ok_iff.1 hup
  obtain ⟨files, hup', hν, hr⟩ := hf t₁ hq
  exact ⟨files, by rw [run_bind_of_ok hx₁, hup'], hμ.andThen hν, hr⟩

theorem bind_of_error (hx : Uniform P x (.error e) μ Q) : Uniform P (x >>= f) (.error e) μ Q := by
  intro t ht
  obtain ⟨files, hup, hμ, hq⟩ := hx t ht
  obtain ⟨t₁, hx₁, rfl⟩ := resultAndFiles_eq_error_iff.1 hup
  exact ⟨t₁.files, by rw [run_bind_of_error hx₁, resultAndFiles], hμ, hq⟩

theorem mono (hx : Uniform P x r μ Q) (hp : ∀ fs, P' fs → P fs) (hq : ∀ fs, Q fs → Q' fs) :
    Uniform P' x r μ Q' := by
  intro t ht
  obtain ⟨files, hup, hμ, h⟩ := hx t (hp _ ht)
  exact ⟨files, hup, hμ, hq files h⟩

theorem attempt (hx : Uniform P x r μ Q) :
    Uniform P (attempt x : Action δ (Except ε α)) (.ok r) μ Q := by
  intro t ht
  obtain ⟨files, hup, hμ, hq⟩ := hx t ht
  refine ⟨files, ?_, hμ, hq⟩
  unfold Action.attempt
  cases h : x t <;> rw [h] at hup <;> cases hup <;> rfl

end Uniform

/-- Files of one kind are left files of that kind, and nothing else makes a difference. -/
def Settled (P : FileSystem → Prop) (x : Action ε α) : Prop := ∃ r μ, Uniform P x r μ P

namespace Settled

theorem pure (a : α) : Settled P (Pure.pure a : Action ε α) := ⟨.ok a, .none, .pure a⟩

theorem bind (hx : Settled P x) (hf : ∀ a, Settled P (f a)) : Settled P (x >>= f) := by
  obtain ⟨r, μ, hx⟩ := hx
  cases r with
  | error e => exact ⟨.error e, μ, hx.bind_of_error⟩
  | ok a =>
    obtain ⟨r', ν, hfa⟩ := hf a
    exact ⟨r', μ.andThen ν, hx.bind hfa⟩

theorem attempt (hx : Settled P x) : Settled P (attempt x : Action δ (Except ε α)) := by
  obtain ⟨r, μ, hx⟩ := hx
  exact ⟨.ok r, μ, hx.attempt⟩

theorem kept (h : Settled P x) (hs : P s.files) : P (resultAndFiles (x s)).2 := by
  obtain ⟨r, μ, h⟩ := h
  obtain ⟨files, hup, -, hq⟩ := h s hs
  rwa [hup]

theorem again (h : Settled P x) (hs : P s.files) (ht : t.files = (resultAndFiles (x s)).2) :
    ∃ files, resultAndFiles (x t) = ((resultAndFiles (x s)).1, files) ∧
      ∀ l, files.node? l = t.files.node? l := by
  obtain ⟨r, μ, h⟩ := h
  obtain ⟨files, hup, hμ, hq⟩ := h s hs
  obtain rfl : t.files = files := ht.trans (congrArg Prod.snd hup)
  obtain ⟨files', hup', hμ', -⟩ := h t hq
  rw [hup, hup']
  exact ⟨files', rfl, hμ.again hμ'⟩

end Settled

end Action

end ModuleInstall
