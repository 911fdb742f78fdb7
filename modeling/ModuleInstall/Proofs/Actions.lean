import ModuleInstall.Session

/-! # How actions end -/

namespace ModuleInstall.Action

variable {ε δ α β : Type} {s s' : Session} {a : α} {b : β} {e : ε}

/-- The session in which an action ends, whether it ends well or not. -/
def after : EStateM.Result ε Session α → Session
  | .ok _ s => s
  | .error _ s => s

/-- What an action ends with, if it ends well. -/
def value? : EStateM.Result ε Session α → Option α
  | .ok a _ => some a
  | .error _ _ => none

theorem value?_eq_some_iff {r : EStateM.Result ε Session α} :
    value? r = some a ↔ r = .ok a (after r) := by
  cases r <;> simp [value?, after]

@[simp] theorem run_pure (a : α) (s : Session) : (pure a : Action ε α) s = .ok a s := rfl

@[simp] theorem run_print (record : Record) (s : Session) :
    (print record : Action ε Unit) s = .ok () (s.record [.printed record]) := rfl

@[simp] theorem run_ask (question : FileSystem → α) (s : Session) :
    (ask question : Action ε α) s = .ok (question s.files) s := rfl

theorem bind_eq_ok_iff {x : Action ε α} {f : α → Action ε β} :
    (x >>= f) s = .ok b s' ↔ ∃ a s₁, x s = .ok a s₁ ∧ f a s₁ = .ok b s' := by
  rw [show (x >>= f) s = EStateM.bind x f s from rfl, EStateM.bind]
  cases x s <;> simp [and_assoc]

theorem bind_eq_error_iff {x : Action ε α} {f : α → Action ε β} :
    (x >>= f) s = .error e s' ↔
      x s = .error e s' ∨ ∃ a s₁, x s = .ok a s₁ ∧ f a s₁ = .error e s' := by
  rw [show (x >>= f) s = EStateM.bind x f s from rfl, EStateM.bind]
  cases x s <;> simp [and_assoc]

theorem run_bind_of_ok {x : Action ε α} {f : α → Action ε β} (h : x s = .ok a s') :
    (x >>= f) s = f a s' := by
  rw [show (x >>= f) s = EStateM.bind x f s from rfl, EStateM.bind, h]

theorem run_bind_of_error {x : Action ε α} {f : α → Action ε β} (h : x s = .error e s') :
    (x >>= f) s = .error e s' := by
  rw [show (x >>= f) s = EStateM.bind x f s from rfl, EStateM.bind, h]

theorem query_eq_ok_iff {call : FileSystem → Except SystemError α} {onError : SystemError → ε} :
    query call onError s = .ok a s' ↔ call s.files = .ok a ∧ s = s' := by
  unfold query
  cases call s.files <;> simp

theorem query_eq_error_iff {call : FileSystem → Except SystemError α} {onError : SystemError → ε} :
    query call onError s = .error e s' ↔
      ∃ cause, call s.files = .error cause ∧ e = onError cause ∧ s = s' := by
  unfold query
  cases call s.files <;> simp [eq_comm]

theorem change_eq_ok_iff {call : FileSystem → Except SystemError FileSystem}
    {onError : SystemError → ε} :
    change call onError s = .ok () s' ↔
      ∃ files, call s.files = .ok files ∧ s' = { s with files } := by
  unfold change
  cases call s.files <;> simp [eq_comm]

theorem change_eq_error_iff {call : FileSystem → Except SystemError FileSystem}
    {onError : SystemError → ε} :
    change call onError s = .error e s' ↔
      ∃ cause, call s.files = .error cause ∧ e = onError cause ∧ s = s' := by
  unfold change
  cases call s.files <;> simp [eq_comm]

theorem run_save (room : Room) (here : Location) (p : Path) (content : Bytes)
    (onError : SystemError → ε) (s : Session) :
    save room here p content onError s =
      match s.files.write here p (s.files.taken room here p content) with
      | .error cause => .error (onError cause) s
      | .ok files =>
        if s.files.taken room here p content = content then .ok () { s with files }
        else .error (onError (.code .noSpace)) { s with files } := by
  unfold save
  rw [run_bind_of_ok (run_ask _ _)]
  cases hw : s.files.write here p (s.files.taken room here p content) with
  | error cause => exact run_bind_of_error (change_eq_error_iff.2 ⟨cause, hw, rfl, rfl⟩)
  | ok files =>
    rw [run_bind_of_ok (change_eq_ok_iff.2 ⟨files, hw, rfl⟩)]
    by_cases ht : s.files.taken room here p content = content
    · simp [ht]
    · simp [ht]
      rfl

section Save

variable {room : Room} {here : Location} {p : Path} {content : Bytes} {onError : SystemError → ε}

theorem save_eq_ok_iff :
    save room here p content onError s = .ok () s' ↔
      s.files.taken room here p content = content ∧
        ∃ files, s.files.write here p content = .ok files ∧ s' = { s with files } := by
  rw [run_save]
  by_cases ht : s.files.taken room here p content = content
  · rw [ht]
    cases s.files.write here p content <;> simp [eq_comm]
  · cases s.files.write here p (s.files.taken room here p content) <;> simp [ht]

theorem save_eq_error_iff :
    save room here p content onError s = .error e s' ↔
      (∃ cause, s.files.write here p content = .error cause ∧ e = onError cause ∧ s' = s) ∨
        ∃ files, s.files.FallsShort room here p content files ∧ e = onError (.code .noSpace) ∧
          s' = { s with files } := by
  rw [run_save]
  cases hw : s.files.write here p (s.files.taken room here p content) with
  | error cause =>
    have hw' := FileSystem.write_error_congr hw content
    simp [FileSystem.FallsShort, hw, hw', eq_comm]
  | ok files =>
    have hw' : ∀ cause, s.files.write here p content ≠ .error cause := by
      intro cause h
      rw [FileSystem.write_error_congr h] at hw
      cases hw
    by_cases ht : s.files.taken room here p content = content <;>
      simp [FileSystem.FallsShort, hw, hw', ht, eq_comm]

theorem after_save (room : Room) (here : Location) (p : Path) (content : Bytes)
    (onError : SystemError → ε) (s : Session) :
    after (save room here p content onError s) = s ∨
      ∃ kept files, kept <+: content ∧ s.files.write here p kept = .ok files ∧
        after (save room here p content onError s) = { s with files } := by
  rw [run_save]
  cases hw : s.files.write here p (s.files.taken room here p content) with
  | error cause => exact Or.inl rfl
  | ok files =>
    refine Or.inr ⟨_, files, FileSystem.taken_isPrefix, hw, ?_⟩
    dsimp only
    split <;> rfl

end Save

theorem orFail_eq_ok_iff {x : Action δ α} {onError : δ → ε} :
    orFail x onError s = .ok a s' ↔ x s = .ok a s' := by
  unfold orFail
  cases x s <;> simp

theorem orFail_eq_error_iff {x : Action δ α} {onError : δ → ε} :
    orFail x onError s = .error e s' ↔ ∃ d, x s = .error d s' ∧ e = onError d := by
  unfold orFail
  cases x s with
  | ok a s₁ => simp
  | error d s₁ => grind

theorem attempt_eq_ok_iff {x : Action δ α} {r : Except δ α} :
    (attempt x : Action ε (Except δ α)) s = .ok r s' ↔
      (∃ a, r = .ok a ∧ x s = .ok a s') ∨ ∃ d, r = .error d ∧ x s = .error d s' := by
  unfold attempt
  cases x s <;> grind

end ModuleInstall.Action
