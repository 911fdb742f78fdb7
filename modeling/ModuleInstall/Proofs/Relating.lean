import Mathlib.Order.Defs.Unbundled
import ModuleInstall.Proofs.Moving
import ModuleInstall.Proofs.Provision
import ModuleInstall.Proofs.Turns

/-!
# Before and after

A reflexive and transitive relation that allows every single call holds between the sessions before
and after a run.
-/

namespace ModuleInstall

open FileSystem

namespace Action

variable {ε δ α β : Type} {R : Session → Session → Prop}

/-- Wherever the action starts, the relation holds between the sessions before and after it. -/
def Relates (R : Session → Session → Prop) (x : Action ε α) : Prop := ∀ s, R s (after (x s))

namespace Relates

theorem print {record : Record} (h : ∀ s : Session, R s (s.record [.printed record])) :
    Relates R (print record : Action ε Unit) := h

theorem orFail {x : Action δ α} (hx : Relates R x) (onError : δ → ε) :
    Relates R (orFail x onError) := by
  intro s
  have hxs := hx s
  unfold Action.orFail
  cases h : x s <;> rw [h] at hxs <;> exact hxs

theorem attempt {x : Action δ α} (hx : Relates R x) :
    Relates R (attempt x : Action ε (Except δ α)) := by
  intro s
  have hxs := hx s
  unfold Action.attempt
  cases h : x s <;> rw [h] at hxs <;> exact hxs

variable [IsPreorder Session R]

theorem pure (a : α) : Relates R (Pure.pure a : Action ε α) := fun s => refl s

theorem ask (question : FileSystem → α) : Relates R (ask question : Action ε α) := fun s => refl s

theorem query (call : FileSystem → Except SystemError α) (onError : SystemError → ε) :
    Relates R (query call onError) := by
  intro s
  unfold Action.query
  split <;> exact refl s

theorem change {call : FileSystem → Except SystemError FileSystem} {onError : SystemError → ε}
    (h : ∀ (s : Session) files, call s.files = .ok files → R s { s with files }) :
    Relates R (change call onError) := by
  intro s
  unfold Action.change
  cases hc : call s.files with
  | ok files => exact h s files hc
  | error e => exact refl s

theorem bind_of_ok {x : Action ε α} {f : α → Action ε β} (hx : Relates R x)
    (hf : ∀ a s s', x s = .ok a s' → R s' (after (f a s'))) : Relates R (x >>= f) := by
  intro s
  have hxs := hx s
  cases h : x s with
  | ok a s' =>
    rw [h] at hxs
    rw [run_bind_of_ok h]
    exact IsTrans.trans _ _ _ hxs (hf a s s' h)
  | error e s' =>
    rw [h] at hxs
    rw [run_bind_of_error h]
    exact hxs

theorem bind {x : Action ε α} {f : α → Action ε β} (hx : Relates R x) (hf : ∀ a, Relates R (f a)) :
    Relates R (x >>= f) :=
  hx.bind_of_ok fun a _ s' _ => hf a s'

end Relates

end Action

namespace Installer

open ModuleInstall.Action

variable {i : Installer} {R : Session → Session → Prop}

/-! ## What a relation allows -/

/-- Some compilation has this artifact for its result. -/
def Reports (i : Installer) (artifact : Artifact) : Prop :=
  ∃ fs source, (i.compiler fs source).result = .ok artifact

/-- The relation allows what bringing the tree into shape and moving a module do to a session. -/
structure Allows (i : Installer) (R : Session → Session → Prop) : Prop extends
    IsPreorder Session R where
  detail : ∀ s text, R s (s.record [.printed (.detail text)])
  warning : ∀ s text, R s (s.record [.printed (.warning text)])
  clear : ∀ (s : Session) level files, level ∈ i.settings.tree.levels →
    s.files.remove i.here level = .ok files → R s { s with files }
  make : ∀ (s : Session) level files, level ∈ i.settings.tree.levels →
    s.files.makeDirectory i.here level = .ok files → R s { s with files }
  write : ∀ (s : Session) source n content kept files, source.fileName? = some n →
    s.files.read i.here source = .ok content → kept <+: content →
    s.files.write i.here (i.settings.tree.modulePath n) kept = .ok files → R s { s with files }
  remove : ∀ (s : Session) artifact files, i.Reports artifact →
    s.files.remove i.here artifact.path = .ok files → R s { s with files }

namespace Allows

variable (h : i.Allows R)
include h

theorem relates_ensureDirectory {level : Path} (hl : level ∈ i.settings.tree.levels) :
    Relates R (ensureDirectory i.here level) := by
  have := h.toIsPreorder
  have hclear : Relates R (clearTheWay i.here level) :=
    .bind (.print fun s => h.warning s _) fun _ => .change fun s files hf => h.clear s level files hl hf
  have hmake : Relates R (makeLevel i.here level) :=
    .bind (.print fun s => h.detail s _) fun _ => .change fun s files hf => h.make s level files hl hf
  have hboth := hclear.bind fun _ => hmake
  intro s
  rw [run_ensureDirectory]
  split
  · exact refl s
  · exact hboth s
  · split
    · exact hboth s
    · exact hmake s
  · exact refl s

theorem relates_provision : Relates R i.provision := by
  have := h.toIsPreorder
  have hlevel := fun level (hl : level ∈ i.settings.tree.levels) => h.relates_ensureDirectory hl
  refine .orFail ?_ _
  exact .bind (hlevel _ (by simp [Tree.levels])) fun _ =>
    .bind (hlevel _ (by simp [Tree.levels])) fun _ =>
      .bind (hlevel _ (by simp [Tree.levels])) fun _ => .pure _

theorem relates_copyModule (source : Path) : Relates R (i.copyModule source) := by
  have := h.toIsPreorder
  intro s
  have htold := fun n => h.detail s
    ("install " ++ source.display ++ " -> " ++ (i.settings.tree.modulePath n).display)
  rcases i.after_copyModule source s with hs | ⟨n, content, hn, hr, hs | ⟨kept, files, hk, hw, hs⟩⟩
  · rw [hs]
    exact refl s
  · rw [hs]
    exact htold n
  · rw [hs]
    exact IsTrans.trans _ _ _ (htold n) (h.write _ source n content kept files hn hr hk hw)

theorem relates_moveArtifact {artifact : Artifact} (ha : i.Reports artifact) :
    Relates R (i.moveArtifact artifact) := by
  have := h.toIsPreorder
  exact .bind (h.relates_copyModule _) fun _ =>
    .bind (.change fun s files hf => h.remove s artifact files ha hf) fun _ => .pure _

end Allows

/-- The relation allows what handling a file does to a session. -/
structure AllowsHandling (i : Installer) (R : Session → Session → Prop) : Prop extends
    i.Allows R where
  compile : ∀ s source, R s (i.afterCompiling source s)

namespace AllowsHandling

variable (h : i.AllowsHandling R)
include h

theorem relates_compile (source : Path) : Relates R (i.compile source) := by
  intro s
  rw [run_compile]
  split <;> exact h.compile s source

theorem relates_compileAndMove (source : Path) : Relates R (i.compileAndMove source) := by
  have := h.toIsPreorder
  refine .bind_of_ok (h.relates_compile source) fun artifact s s' hc => ?_
  have hreports : i.Reports artifact := ⟨_, _, (compile_ok hc).1⟩
  exact Relates.bind (h.relates_moveArtifact hreports) (fun _ => .pure _) s'

theorem relates_handle (path : Path) (kind : ModuleKind) : Relates R (i.handle path kind) := by
  have := h.toIsPreorder
  cases kind with
  | source =>
    refine .bind (.attempt (h.relates_compileAndMove path)) fun r => ?_
    cases r with
    | ok built => exact .pure _
    | error e => exact .pure _
  | precompiled => exact .bind (h.relates_copyModule path) fun _ => .pure _
  | ignored => exact .pure _

theorem relates_installFile (path : Path) : Relates R (i.installFile path) :=
  h.relates_handle path _

end AllowsHandling

/-- The relation allows all that a run of the installer does to a session. -/
structure AllowsAll (i : Installer) (R : Session → Session → Prop) : Prop extends
    i.AllowsHandling R where
  print : ∀ s record, R s (s.record [.printed record])

namespace AllowsAll

variable (h : i.AllowsAll R)
include h

theorem relates_buildModule (source : Path) (install : Bool) :
    Relates R (i.buildModule source install) := by
  have := h.toIsPreorder
  refine .bind (.print fun s => h.print s _) fun _ => ?_
  refine .bind_of_ok (h.relates_compile source) fun artifact s s' hc => ?_
  have hreports : i.Reports artifact := ⟨_, _, (compile_ok hc).1⟩
  cases install with
  | false => exact refl s'
  | true =>
    refine Relates.bind h.relates_provision (fun _ => ?_) s'
    exact .bind (.print fun s => h.print s _) fun _ =>
      .bind (h.relates_moveArtifact hreports) fun _ => .pure _

theorem relates_handleListed (total : Nat) (path : Path) (number : Nat) :
    Relates R (i.handleListed total path number) := by
  have := h.toIsPreorder
  intro s
  have hsaid : R s (i.announcing total path number s) := by
    unfold announcing
    split
    · exact refl s
    · exact h.print s _
  have hdone := IsTrans.trans _ _ _ hsaid (h.relates_handle path (i.settings.kindOf path) _)
  rw [run_handleListed]
  cases hh : i.handle path (i.settings.kindOf path) (i.announcing total path number s) with
  | error e s' =>
    rw [hh] at hdone
    exact hdone
  | ok outcome s' =>
    rw [hh] at hdone
    rcases outcome with _ | _ | _ | e
    case some.failed => exact IsTrans.trans _ _ _ hdone (h.print s' _)
    all_goals exact hdone

theorem relates_handleAll (total : Nat) (items : List (Path × Nat)) :
    Relates R (i.handleAll total items) := by
  have := h.toIsPreorder
  induction items with
  | nil => exact .pure _
  | cons item rest ih =>
    obtain ⟨path, number⟩ := item
    exact .bind (h.relates_handleListed total path number) fun _ => .bind ih fun _ => .pure _

theorem relates_installAll (dir : Path) : Relates R (i.installAll dir) := by
  have := h.toIsPreorder
  have hlist : Relates R (i.listFiles dir) := .bind (.query _ _) fun _ => .ask _
  exact .bind h.relates_provision fun _ => .bind hlist fun _ =>
    .bind (h.relates_handleAll _ _) fun _ => .pure _

end AllowsAll

end Installer

end ModuleInstall
