import ModuleInstall.Proofs.Moving
import ModuleInstall.Proofs.Turns

/-! # What does not depend on the events -/

namespace ModuleInstall

open FileSystem

namespace Action

variable {ε δ α β : Type} {s s' t t' : Session} {a : α} {e : ε} {files : FileSystem}

/-- How an action ends and the files it leaves, without the events. -/
def resultAndFiles : EStateM.Result ε Session α → Except ε α × FileSystem
  | .ok a s => (.ok a, s.files)
  | .error e s => (.error e, s.files)

theorem resultAndFiles_eq_ok_iff {r : EStateM.Result ε Session α} :
    resultAndFiles r = (.ok a, files) ↔ ∃ s, r = .ok a s ∧ s.files = files := by
  cases r <;> simp [resultAndFiles, and_assoc]

theorem resultAndFiles_eq_error_iff {r : EStateM.Result ε Session α} :
    resultAndFiles r = (.error e, files) ↔ ∃ s, r = .error e s ∧ s.files = files := by
  cases r <;> simp [resultAndFiles, and_assoc]

theorem resultAndFiles_bind {x y : Action ε α} {f g : α → Action ε β}
    (hx : resultAndFiles (x s) = resultAndFiles (y t))
    (hf : ∀ a s' t', x s = .ok a s' → y t = .ok a t' → s'.files = t'.files →
      resultAndFiles (f a s') = resultAndFiles (g a t')) :
    resultAndFiles ((x >>= f) s) = resultAndFiles ((y >>= g) t) := by
  cases hs : x s with
  | ok a s' =>
    rw [hs] at hx
    obtain ⟨t', ht, hfiles⟩ := resultAndFiles_eq_ok_iff.1 hx.symm
    rw [run_bind_of_ok hs, run_bind_of_ok ht]
    exact hf a s' t' hs ht hfiles.symm
  | error e s' =>
    rw [hs] at hx
    obtain ⟨t', ht, hfiles⟩ := resultAndFiles_eq_error_iff.1 hx.symm
    rw [run_bind_of_error hs, run_bind_of_error ht, resultAndFiles, resultAndFiles, hfiles]

/-- The events so far make no difference to the action. -/
def IgnoresEvents (x : Action ε α) : Prop :=
  ∀ s t, s.files = t.files → resultAndFiles (x s) = resultAndFiles (x t)

namespace IgnoresEvents

theorem pure (a : α) : IgnoresEvents (Pure.pure a : Action ε α) := by
  intro s t h
  rw [run_pure, run_pure, resultAndFiles, resultAndFiles, h]

theorem throw (e : ε) : IgnoresEvents (throw e : Action ε α) := by
  intro s t h
  exact Prod.ext rfl h

theorem print (record : Record) : IgnoresEvents (print record : Action ε Unit) := by
  intro s t h
  exact Prod.ext rfl h

theorem ask (question : FileSystem → α) : IgnoresEvents (ask question : Action ε α) := by
  intro s t h
  rw [run_ask, run_ask, resultAndFiles, resultAndFiles, h]

theorem query (call : FileSystem → Except SystemError α) (onError : SystemError → ε) :
    IgnoresEvents (query call onError) := by
  intro s t h
  unfold Action.query
  rw [h]
  cases call t.files <;> exact Prod.ext rfl h

theorem change (call : FileSystem → Except SystemError FileSystem) (onError : SystemError → ε) :
    IgnoresEvents (change call onError) := by
  intro s t h
  unfold Action.change
  rw [h]
  cases call t.files with
  | ok files => rfl
  | error cause => exact Prod.ext rfl h

theorem bind {x : Action ε α} {f : α → Action ε β} (hx : IgnoresEvents x)
    (hf : ∀ a, IgnoresEvents (f a)) :
    IgnoresEvents (x >>= f) :=
  fun s t h => resultAndFiles_bind (hx s t h) fun a s' t' _ _ h' => hf a s' t' h'

theorem save (room : Room) (here : Location) (p : Path) (content : Bytes)
    (onError : SystemError → ε) : IgnoresEvents (save room here p content onError) := by
  refine .bind (.ask _) fun taken => .bind (.change _ _) fun _ => ?_
  split
  · exact .throw _
  · exact .pure _

theorem orFail {x : Action δ α} (hx : IgnoresEvents x) (onError : δ → ε) :
    IgnoresEvents (orFail x onError) := by
  intro s t h
  have := hx s t h
  unfold Action.orFail
  cases hs : x s <;> cases ht : x t <;> simp_all [resultAndFiles]

theorem attempt {x : Action δ α} (hx : IgnoresEvents x) :
    IgnoresEvents (attempt x : Action ε (Except δ α)) := by
  intro s t h
  have := hx s t h
  unfold Action.attempt
  cases hs : x s <;> cases ht : x t <;> simp_all [resultAndFiles]

end IgnoresEvents

end Action

open ModuleInstall.Action

theorem ignoresEvents_clearTheWay (here : Location) (p : Path) :
    IgnoresEvents (clearTheWay here p) :=
  .bind (.print _) fun _ => .change _ _

theorem ignoresEvents_makeLevel (here : Location) (p : Path) : IgnoresEvents (makeLevel here p) :=
  .bind (.print _) fun _ => .change _ _

theorem ignoresEvents_ensureDirectory (here : Location) (p : Path) :
    IgnoresEvents (ensureDirectory here p) := by
  have hmake := ignoresEvents_makeLevel here p
  refine .bind (.ask _) fun answer => ?_
  split
  · exact .pure _
  · exact .bind (ignoresEvents_clearTheWay here p) fun _ => hmake
  · refine .bind (.ask _) fun occupied => ?_
    split
    · exact .bind (ignoresEvents_clearTheWay here p) fun _ => hmake
    · exact hmake
  · exact .throw _

theorem Compiler.ignoresEvents (c : Compiler) (source : Path) :
    IgnoresEvents (c.compile source) := by
  intro s t h
  simp only [Compiler.compile, h]
  split <;> rfl

namespace Installer

variable (i : Installer)

theorem ignoresEvents_copyModule (source : Path) : IgnoresEvents (i.copyModule source) := by
  unfold copyModule
  split
  · exact .throw _
  · exact .bind (.query _ _) fun _ => .bind (.print _) fun _ => .bind (.save _ _ _ _ _) fun _ => .pure _

theorem ignoresEvents_moveArtifact (artifact : Artifact) :
    IgnoresEvents (i.moveArtifact artifact) :=
  .bind (i.ignoresEvents_copyModule _) fun _ => .bind (.change _ _) fun _ => .pure _

theorem ignoresEvents_compile (source : Path) : IgnoresEvents (i.compile source) :=
  .orFail (i.compiler.ignoresEvents source) _

theorem ignoresEvents_compileAndMove (source : Path) : IgnoresEvents (i.compileAndMove source) :=
  .bind (i.ignoresEvents_compile source) fun _ =>
    .bind (i.ignoresEvents_moveArtifact _) fun _ => .pure _

theorem ignoresEvents_handle (path : Path) (kind : ModuleKind) :
    IgnoresEvents (i.handle path kind) := by
  cases kind with
  | source =>
    refine .bind (.attempt (i.ignoresEvents_compileAndMove path)) fun r => ?_
    cases r with
    | ok built => exact .pure _
    | error e => exact .pure _
  | precompiled => exact .bind (i.ignoresEvents_copyModule path) fun _ => .pure _
  | ignored => exact .pure _

theorem ignoresEvents_provision : IgnoresEvents i.provision :=
  have hlevel := fun level => ignoresEvents_ensureDirectory i.here level
  .orFail (.bind (hlevel _) fun _ => .bind (hlevel _) fun _ => .bind (hlevel _) fun _ => .pure _) _

theorem resultAndFiles_handleListed (total : Nat) (path : Path) (number : Nat) (s : Session) :
    resultAndFiles (i.handleListed total path number s) =
      resultAndFiles ((do
        let outcome ← i.handle path (i.settings.kindOf path)
        return outcome.map (listedName path, ·) : Action _ _) s) := by
  have hsame := i.ignoresEvents_handle path (i.settings.kindOf path)
    (i.announcing total path number s) s (files_announcing ..)
  rw [run_handleListed]
  cases hr : i.handle path (i.settings.kindOf path) (i.announcing total path number s) with
  | error e t =>
    rw [hr] at hsame
    obtain ⟨t', ht, hfiles⟩ := resultAndFiles_eq_error_iff.1 hsame.symm
    rw [run_bind_of_error ht, resultAndFiles, resultAndFiles, hfiles]
  | ok outcome t =>
    rw [hr] at hsame
    obtain ⟨t', ht, hfiles⟩ := resultAndFiles_eq_ok_iff.1 hsame.symm
    rw [run_bind_of_ok ht]
    cases outcome with
    | none => exact Prod.ext rfl hfiles.symm
    | some o => exact Prod.ext rfl ((files_showing o t).trans hfiles.symm)

theorem ignoresEvents_handleListed (total : Nat) (path : Path) (number : Nat) :
    IgnoresEvents (i.handleListed total path number) := by
  intro s t h
  rw [resultAndFiles_handleListed, resultAndFiles_handleListed]
  exact ((i.ignoresEvents_handle _ _).bind fun _ => .pure _) s t h

theorem ignoresEvents_handleAll (total : Nat) (items : List (Path × Nat)) :
    IgnoresEvents (i.handleAll total items) := by
  induction items with
  | nil => exact .pure _
  | cons item rest ih =>
    exact .bind (i.ignoresEvents_handleListed total item.1 item.2) fun _ => .bind ih fun _ => .pure _

theorem ignoresEvents_installAll (dir : Path) : IgnoresEvents (i.installAll dir) :=
  .bind i.ignoresEvents_provision fun _ =>
    .bind (.bind (.query _ _) fun _ => .ask _) fun _ =>
      .bind (i.ignoresEvents_handleAll _ _) fun _ => .pure _

/-! ## A run -/

/-- Installs files one after the other. -/
def installEach : List Path → Action InstallError (List (String × Outcome))
  | [] => return []
  | path :: rest => do
    let outcome ← i.installFile path
    let entries ← installEach rest
    return (outcome.map (listedName path, ·)).toList ++ entries

variable {i} {total : Nat} {items : List (Path × Nat)} {paths : List Path} {dir : Path}
  {s s₁ t : Session}

theorem handleListed_ignored (total : Nat) {path : Path} (number : Nat) (s : Session)
    (hk : i.settings.kindOf path = .ignored) :
    i.handleListed total path number s = .ok none s := by
  rw [run_handleListed, announcing, if_pos hk, hk]
  rfl

/-- How the files are counted makes no difference to a run, nor do the ignored ones among them. -/
theorem resultAndFiles_handleAll_eq_installEach (hfiles : s.files = t.files) :
    resultAndFiles (i.handleAll total items s) = resultAndFiles (i.installEach
      ((items.map Prod.fst).filter (i.settings.kindOf · ≠ .ignored)) t) := by
  induction items generalizing s t with
  | nil => exact IgnoresEvents.pure _ _ _ hfiles
  | cons item items ih =>
    obtain ⟨path, number⟩ := item
    by_cases hk : i.settings.kindOf path = .ignored
    · rw [handleAll_cons_of_ok (handleListed_ignored total number s hk), List.map_cons,
        List.filter_cons_of_neg (by simp [hk]), ← ih hfiles]
      cases i.handleAll total items s <;> rfl
    · have hturn : resultAndFiles (i.handleListed total path number s) =
          resultAndFiles ((do
            let outcome ← i.installFile path
            return outcome.map (listedName path, ·) : Action _ _) t) := by
        rw [i.resultAndFiles_handleListed, installFile]
        exact ((i.ignoresEvents_handle _ _).bind fun _ => .pure _) s t hfiles
      have hsplit : ∀ rest, i.installEach (path :: rest) = (do
          let entry ← (do
            let outcome ← i.installFile path
            return outcome.map (listedName path, ·) : Action _ _)
          let entries ← i.installEach rest
          return entry.toList ++ entries) := by
        intro rest
        simp only [installEach, bind_assoc, pure_bind]
      rw [List.map_cons, List.filter_cons_of_pos (by simp [hk]), hsplit, handleAll]
      refine resultAndFiles_bind hturn fun entry s' t' _ _ hfiles' => ?_
      exact resultAndFiles_bind (ih hfiles') fun _ _ _ _ _ hfiles => IgnoresEvents.pure _ _ _ hfiles

/-- Installs files one after the other, and reports them. -/
def reportEach (paths : List Path) : Action InstallError Report := do
  let entries ← i.installEach paths
  return { entries }

theorem resultAndFiles_installAll (hp : i.provision s = .ok () s₁)
    (hl : i.listFiles dir s₁ = .ok paths s₁) :
    resultAndFiles (i.installAll dir s) =
      resultAndFiles (i.reportEach (paths.filter (i.settings.kindOf · ≠ .ignored)) s₁) := by
  unfold installAll reportEach
  rw [run_bind_of_ok hp, run_bind_of_ok hl]
  refine resultAndFiles_bind ?_ fun _ _ _ _ _ hfiles => IgnoresEvents.pure _ _ _ hfiles
  rw [resultAndFiles_handleAll_eq_installEach rfl, List.zipIdx_map_fst]

end Installer

end ModuleInstall
