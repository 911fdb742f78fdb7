import ModuleInstall.Proofs.Relating
import ModuleInstall.Proofs.IgnoredEvents

/-! # Which compilers are asked -/

namespace ModuleInstall

open ModuleInstall.Action

/-- The sources among some events that a compiler was asked to compile. -/
def calls (events : List Event) : List Path := events.filterMap Event.asked?

theorem calls_record (s : Session) (record : Record) :
    calls (s.record [.printed record]).events = calls s.events := by
  simp [Session.record, calls, Event.asked?]

/-- The action asks no compiler. -/
def Action.Quiet {ε α : Type} (x : Action ε α) : Prop :=
  ∀ s, calls (after (x s)).events = calls s.events

namespace Installer

variable {i : Installer} {path dir : Path} {s s' t t' : Session} {total number : Nat}
  {items : List (Path × Nat)} {entries : List (String × Outcome)}
  {entry : Option (String × Outcome)}

theorem allows_sameCalls (i : Installer) :
    i.Allows fun s t => calls t.events = calls s.events where
  refl _ := rfl
  trans _ _ _ h₁ h₂ := h₂.trans h₁
  detail s _ := calls_record s _
  warning s _ := calls_record s _
  clear _ _ _ _ _ := rfl
  make _ _ _ _ _ := rfl
  write _ _ _ _ _ _ _ _ _ _ := rfl
  remove _ _ _ _ _ := rfl

theorem quiet_provision (i : Installer) : Quiet i.provision := i.allows_sameCalls.relates_provision

theorem quiet_copyModule (i : Installer) (source : Path) : Quiet (i.copyModule source) :=
  i.allows_sameCalls.relates_copyModule source

theorem quiet_moveArtifact {artifact : Artifact} (ha : i.Reports artifact) :
    Quiet (i.moveArtifact artifact) :=
  i.allows_sameCalls.relates_moveArtifact ha

/-- What a compiler is asked when it is given a source, by the installer and then by itself. -/
def callsOf (i : Installer) (run : FileSystem × Path) : List Path :=
  run.2 :: calls (i.compiler run.1 run.2).events

theorem calls_afterCompiling (i : Installer) (path : Path) (s : Session) :
    calls (i.afterCompiling path s).events = calls s.events ++ i.callsOf (s.files, path) := by
  simp [calls, callsOf, afterCompiling, Event.asked?]

theorem calls_compileAndMove (i : Installer) (path : Path) (s : Session) :
    calls (after (i.compileAndMove path s)).events =
      calls s.events ++ i.callsOf (s.files, path) := by
  rw [run_compileAndMove, ← calls_afterCompiling]
  cases hr : (i.compiler s.files path).result with
  | error e => rfl
  | ok artifact =>
    have hmove := quiet_moveArtifact ⟨_, _, hr⟩ (i.afterCompiling path s)
    dsimp only
    cases hm : i.moveArtifact artifact (i.afterCompiling path s) <;> rw [hm] at hmove <;>
      exact hmove

theorem calls_handle (i : Installer) (path : Path) (s : Session) :
    calls (after (i.handle path (i.settings.kindOf path) s)).events =
      calls s.events ++
        if i.settings.kindOf path = .source then i.callsOf (s.files, path) else [] := by
  cases hk : i.settings.kindOf path with
  | source =>
    have hmove := i.calls_compileAndMove path s
    rw [handle_source, if_pos rfl]
    cases hm : i.compileAndMove path s <;> rw [hm] at hmove <;> exact hmove
  | precompiled =>
    have hcopy := i.quiet_copyModule path s
    rw [handle_precompiled, if_neg (by simp), List.append_nil]
    cases hc : i.copyModule path s <;> rw [hc] at hcopy <;> exact hcopy
  | ignored => simp [handle, after]

theorem calls_announcing (i : Installer) (total : Nat) (path : Path) (number : Nat) (s : Session) :
    calls (i.announcing total path number s).events = calls s.events := by
  unfold announcing
  split
  · rfl
  · exact calls_record s _

theorem calls_showing (outcome : Outcome) (s : Session) :
    calls (showing outcome s).events = calls s.events := by
  cases outcome with
  | failed e => exact calls_record s _
  | _ => rfl

theorem calls_handleListed (h : i.handleListed total path number s = .ok entry s') :
    calls s'.events = calls s.events ++
      if i.settings.kindOf path = .source then i.callsOf (s.files, path) else [] := by
  have hhandle := i.calls_handle path (i.announcing total path number s)
  rw [calls_announcing, files_announcing] at hhandle
  rw [run_handleListed] at h
  cases hh : i.handle path (i.settings.kindOf path) (i.announcing total path number s) with
  | error e t => simp [hh] at h
  | ok outcome t =>
    rw [hh] at hhandle h
    cases outcome <;> cases h
    · exact hhandle
    · rw [calls_showing]
      exact hhandle

theorem calls_handleAll (h : i.handleAll total items s = .ok entries s') :
    ∃ runs : List (FileSystem × Path),
      runs.map Prod.snd = (items.map Prod.fst).filter (i.settings.kindOf · = .source) ∧
      calls s'.events = calls s.events ++ runs.flatMap i.callsOf := by
  induction items generalizing s entries with
  | nil =>
    cases h
    exact ⟨[], rfl, by simp⟩
  | cons item items ih =>
    obtain ⟨path, number⟩ := item
    cases hl : i.handleListed total path number s with
    | error e t => simp [handleAll_cons_of_error hl] at h
    | ok entry t =>
      rw [handleAll_cons_of_ok hl] at h
      cases hrest : i.handleAll total items t with
      | error e t' => simp [hrest] at h
      | ok more t' =>
        simp only [hrest] at h
        cases h
        obtain ⟨runs, hruns, hcalls⟩ := ih hrest
        rw [hcalls, calls_handleListed hl]
        by_cases hk : i.settings.kindOf path = .source
        · exact ⟨(s.files, path) :: runs, by simp [hk, hruns], by simp [hk]⟩
        · exact ⟨runs, by simp [hk, hruns], by simp [hk]⟩

end Installer

end ModuleInstall
