import ModuleInstall.Proofs.Kinds
import ModuleInstall.Proofs.Moving
import ModuleInstall.Proofs.Plain
import ModuleInstall.Proofs.Programs
import ModuleInstall.Proofs.Spelling

/-! # Two turns of one file -/

namespace ModuleInstall

open FileSystem ModuleInstall.Action

/-! ## SameFilesAndStarts -/

/-- The sessions have the same files, and the same programs have been started in them. -/
structure SameFilesAndStarts (s t : Session) : Prop where
  files : s.files = t.files
  started : s.events.filterMap Event.started? = t.events.filterMap Event.started?

theorem SameFilesAndStarts.refl (s : Session) : SameFilesAndStarts s s := ⟨rfl, rfl⟩

/-- The sessions are abreast, with the directories of a file system without links. -/
structure Beside (fs₀ : FileSystem) (s t : Session) : Prop extends SameFilesAndStarts s t where
  same : SameDirectories fs₀ s.files

namespace Beside

variable {fs₀ files : FileSystem} {s t : Session} (h : Beside fs₀ s t)
include h

theorem print (record record' : Record) :
    Beside fs₀ (s.record [.printed record]) (t.record [.printed record']) where
  files := h.files
  started := by
    have hnone : ∀ r, [Event.printed r].filterMap Event.started? = [] := fun _ => rfl
    simp only [Session.record, List.filterMap_append, hnone, h.started]
  same := h.same

theorem change (hf : SameDirectories s.files files) :
    Beside fs₀ { s with files } { t with files } :=
  ⟨⟨rfl, h.started⟩, h.same.trans hf⟩

theorem asked {p q : Path} {events events' : List Event} (hf : SameDirectories s.files files)
    (he : events.filterMap Event.started? = events'.filterMap Event.started?) :
    Beside fs₀ { files, events := s.events ++ .asked p :: events }
      { files, events := t.events ++ .asked q :: events' } where
  files := rfl
  started := by
    have hasked : ∀ r more, (Event.asked r :: more).filterMap Event.started? =
        more.filterMap Event.started? := fun _ _ => rfl
    simp only [List.filterMap_append, hasked, h.started, he]
  same := h.same.trans hf

end Beside

theorem started_printed (records : List Record) :
    (records.map Event.printed).filterMap Event.started? = [] := by
  induction records with
  | nil => rfl
  | cons record records ih => exact ih

namespace Action

variable {ε δ α β γ ζ : Type} {fs₀ : FileSystem} {R : α → β → Prop} {Q : γ → ζ → Prop}
  {s t : Session}

/-- Both actions have ended well, or both have not, and their sessions are abreast. -/
def Parallel (fs₀ : FileSystem) (R : α → β → Prop) :
    EStateM.Result ε Session α → EStateM.Result δ Session β → Prop
  | .ok a s, .ok b t => R a b ∧ Beside fs₀ s t
  | .error _ s, .error _ t => Beside fs₀ s t
  | _, _ => False

theorem Parallel.bind {x : Action ε α} {y : Action δ β} {f : α → Action ε γ} {g : β → Action δ ζ}
    (hx : Parallel fs₀ R (x s) (y t))
    (hf : ∀ a b s' t', R a b → Beside fs₀ s' t' → Parallel fs₀ Q (f a s') (g b t')) :
    Parallel fs₀ Q ((x >>= f) s) ((y >>= g) t) := by
  cases hs : x s with
  | ok a s' =>
    cases ht : y t with
    | ok b t' =>
      rw [hs, ht] at hx
      rw [run_bind_of_ok hs, run_bind_of_ok ht]
      exact hf a b s' t' hx.1 hx.2
    | error e t' =>
      rw [hs, ht] at hx
      exact hx.elim
  | error e s' =>
    cases ht : y t with
    | ok b t' =>
      rw [hs, ht] at hx
      exact hx.elim
    | error e' t' =>
      rw [hs, ht] at hx
      rw [run_bind_of_error hs, run_bind_of_error ht]
      exact hx

end Action

/-! ## Starting a program -/

theorem Machine.directoryOf_some {here D : Location} {i : Invocation} {fs : FileSystem} {dir : Path}
    (hi : i.directory = some dir) (hd : fs.directoryAt here dir = .ok D) :
    Machine.directoryOf here i fs = .ok D := by
  simp only [Machine.directoryOf, hi, hd]

theorem not_mem_of_directoryAt {here D : Location} {fs : FileSystem} {dir : Path}
    (hd : fs.directoryAt here dir = .ok D) : (0 : UInt8) ∉ dir.bytes := by
  obtain ⟨_, hw, -, -⟩ := directoryAt_eq_ok_iff.1 hd
  obtain ⟨_, hr, -⟩ := walk_eq_ok_iff.1 hw
  exact Path.not_mem_of_route hr

theorem Machine.start_eq (m : Machine) (settings : Settings) {here D : Location} {fs : FileSystem}
    {p q dir₁ dir₂ : Path} {n : Name} (hp : p.fileName? = some n) (hq : q.fileName? = some n)
    (hp₁ : p.parent? = some dir₁) (hq₂ : q.parent? = some dir₂) (hne₁ : dir₁.bytes ≠ [])
    (hne₂ : dir₂.bytes ≠ []) (hd₁ : fs.directoryAt here dir₁ = .ok D)
    (hd₂ : fs.directoryAt here dir₂ = .ok D) :
    m.start here (settings.invocation p) fs = m.start here (settings.invocation q) fs := by
  have hprogram : (settings.invocation p).program = (settings.invocation q).program := rfl
  have hargs : (settings.invocation p).args = (settings.invocation q).args := by
    simp only [Settings.invocation, hp, hq, Option.getD_some]
  have hdir₁ : (settings.invocation p).directory = some dir₁ := by
    simp [Settings.invocation, hp₁, hne₁]
  have hdir₂ : (settings.invocation q).directory = some dir₂ := by
    simp [Settings.invocation, hq₂, hne₂]
  have hpass : (settings.invocation p).Passable ↔ (settings.invocation q).Passable := by
    unfold Invocation.Passable
    rw [hprogram, hargs, hdir₁, hdir₂]
    simp [not_mem_of_directoryAt hd₁, not_mem_of_directoryAt hd₂]
  unfold Machine.start
  rw [directoryOf_some hdir₁ hd₁, directoryOf_some hdir₂ hd₂, hprogram, hargs]
  simp only [hpass]

/-! ## One turn -/

/-- The limit on the length of a path tells the two spellings apart neither at a file nor, if it is
a source, at its artifact. -/
structure Settings.SameLimits (settings : Settings) (dir₁ dir₂ : Path) (n : Name) : Prop where
  listed : (dir₁.join n).SameReach (dir₂.join n)
  artifact : settings.kindOf (dir₁.join n) = .source →
    ∀ a₁ a₂, settings.artifactPath (dir₁.join n) = .ok a₁ →
      settings.artifactPath (dir₂.join n) = .ok a₂ → a₁.SameReach a₂

/-- The outcomes are of one kind, with the same destination. -/
def Outcome.Like : Outcome → Outcome → Prop
  | installed a dest, installed a' dest' => a.notes = a'.notes ∧ dest = dest'
  | copied dest, copied dest' => dest = dest'
  | failed _, failed _ => True
  | _, _ => False

theorem Settings.kindOf_join_eq (settings : Settings) (p q : Path) {n : Name} (hn : IsPiece n) :
    settings.kindOf (p.join n) = settings.kindOf (q.join n) := by
  unfold Settings.kindOf Path.stemAndExtension?
  rw [Path.fileName?_join p hn, Path.fileName?_join q hn]

theorem Settings.isRelative_artifactName {settings : Settings} {p : Path} {n : Name}
    (hn : IsPiece n) (hk : settings.kindOf (p.join n) = .source) :
    IsRelative (settings.artifactName n) := by
  obtain ⟨stem, ext, rfl, -, ha, -⟩ := exists_stem_of_source hn hk
  rw [ha]
  refine ⟨by simp, ?_⟩
  cases stem with
  | nil => simp [Bytes.dot, Bytes.slash]
  | cons b stem =>
    have := hn.no_slash
    simp only [List.cons_append, List.mem_cons, not_or] at this
    simpa using Ne.symm this.1

/-- The entries have one name and outcomes of one kind, with the same destination. -/
def LikeEntry (e e' : String × Outcome) : Prop := e.1 = e'.1 ∧ e.2.Like e'.2

namespace Installer

/-- Two spellings of one directory, which the limit on the length of a path tells apart at no module
in it. -/
structure Respells (i : Installer) (fs : FileSystem) (dir₁ dir₂ : Path) (D : Location) : Prop where
  left : fs.directoryAt i.here dir₁ = .ok D
  right : fs.directoryAt i.here dir₂ = .ok D
  limits (n : Name) (content : Bytes) : fs.content? (n :: D) = some content →
    i.settings.kindOf (dir₁.join n) ≠ .ignored → i.settings.SameLimits dir₁ dir₂ n

/-- Two spellings of one directory, for an installation whose compiler is a program. -/
structure Spelled (i : Installer) (m : Machine) (fs₀ : FileSystem) (dir₁ dir₂ : Path)
    (D : Location) : Prop extends i.Respells fs₀ dir₁ dir₂ D where
  compiler : i.compiler = m.compiler i.settings i.here
  keeps : m.KeepsDirectories
  linkless : fs₀.Linkless

variable {i : Installer} {m : Machine} {fs₀ fs : FileSystem} {dir₁ dir₂ p q : Path} {D : Location}
  {n : Name} {s t : Session}

theorem parallel_save {ε : Type} (room : Room) (here : Location) (p : Path) (content : Bytes)
    (onError : SystemError → ε) (h : Beside fs₀ s t) :
    Parallel fs₀ Eq (save room here p content onError s) (save room here p content onError t) := by
  rw [run_save, run_save, ← h.files]
  cases hw : s.files.write here p (s.files.taken room here p content) with
  | error cause => exact h
  | ok files =>
    have h' := h.change (.of_write h.same.linkless' hw)
    dsimp only
    split
    · exact ⟨rfl, h'⟩
    · exact h'

theorem parallel_copyModule (h : Beside fs₀ s t) (hw : s.files.SameWay i.here p q)
    (hf : p.fileName? = q.fileName? ∨ ∃ e, s.files.read i.here p = .error e) :
    Parallel fs₀ Eq (i.copyModule p s) (i.copyModule q t) := by
  rw [run_copyModule, run_copyModule, ← h.files, ← hw.read]
  cases hr : s.files.read i.here p with
  | error e => cases p.fileName? <;> cases q.fileName? <;> exact h
  | ok content =>
    rw [← hf.resolve_right (by simp [hr])]
    cases hn : p.fileName? with
    | none => exact h
    | some n =>
      have hsave := parallel_save i.room i.here (i.settings.tree.modulePath n) content
        (InstallError.file .write (i.settings.tree.modulePath n))
        (h.print
          (.detail ("install " ++ p.display ++ " -> " ++ (i.settings.tree.modulePath n).display))
          (.detail ("install " ++ q.display ++ " -> " ++ (i.settings.tree.modulePath n).display)))
      dsimp only
      unfold copying
      cases hs : save i.room i.here (i.settings.tree.modulePath n) content
          (InstallError.file .write (i.settings.tree.modulePath n)) (s.record _) <;>
        cases ht : save i.room i.here (i.settings.tree.modulePath n) content
          (InstallError.file .write (i.settings.tree.modulePath n)) (t.record _) <;>
        rw [hs, ht] at hsave
      · exact ⟨rfl, hsave.2⟩
      · exact hsave.elim
      · exact hsave.elim
      · exact hsave

theorem parallel_moveArtifact {a a' : Artifact} (h : Beside fs₀ s t)
    (hw : ∀ fs, SameDirectories fs₀ fs → fs.SameWay i.here a.path a'.path)
    (hf : a.path.fileName? = a'.path.fileName? ∨ ∃ e, s.files.read i.here a.path = .error e) :
    Parallel fs₀ Eq (i.moveArtifact a s) (i.moveArtifact a' t) := by
  refine (parallel_copyModule h (hw _ h.same) hf).bind fun dest dest' s' t' hd h' => ?_
  refine Parallel.bind (R := fun _ _ => True) ?_ fun _ _ s'' t'' _ h'' => ⟨hd, h''⟩
  unfold change
  dsimp only
  rw [← h'.files, ← (hw _ h'.same).remove]
  cases hr : s'.files.remove i.here a.path with
  | error e => exact h'
  | ok files => exact ⟨trivial, h'.change (.of_remove h'.same.linkless' hr)⟩

namespace Spelled

variable (g : Spelled i m fs₀ dir₁ dir₂ D)
include g

theorem parallel_compile (hn : IsPiece n) (h : Beside fs₀ s t) {up₁ up₂ a₁ a₂ : Path}
    (hp₁ : (dir₁.join n).parent? = some up₁) (hp₂ : (dir₂.join n).parent? = some up₂)
    (hne₁ : up₁.bytes ≠ []) (hne₂ : up₂.bytes ≠ [])
    (hd₁ : fs₀.directoryAt i.here up₁ = .ok D) (hd₂ : fs₀.directoryAt i.here up₂ = .ok D)
    (ha₁ : i.settings.artifactPath (dir₁.join n) = .ok a₁)
    (ha₂ : i.settings.artifactPath (dir₂.join n) = .ok a₂) :
    Parallel fs₀ (fun a a' => a.path = a₁ ∧ a'.path = a₂ ∧ a.notes = a'.notes)
      (i.compile (dir₁.join n) s) (i.compile (dir₂.join n) t) := by
  have hstart := m.start_eq i.settings (Path.fileName?_join dir₁ hn) (Path.fileName?_join dir₂ hn)
    hp₁ hp₂ hne₁ hne₂ (h.same.directoryAt hd₁) (h.same.directoryAt hd₂)
  rw [run_compile, run_compile]
  unfold afterCompiling
  rw [g.compiler, ← h.files]
  unfold Machine.compiler
  simp only [ha₁, ha₂, ← hstart]
  cases hs : m.start i.here (i.settings.invocation (dir₁.join n)) s.files with
  | error e => exact h.asked (.refl h.same.linkless') rfl
  | ok started =>
    obtain ⟨directory, launch⟩ := started
    have hkeeps := g.keeps _ _ _ _ _ h.same.linkless' hs
    dsimp only
    by_cases hend : (launch.program directory launch.args s.files).ending.succeeded = true
    · simp only [if_pos hend]
      refine ⟨⟨rfl, rfl, rfl⟩, h.asked hkeeps ?_⟩
      have hbegun : ∀ more, (Event.started directory launch.args :: more).filterMap Event.started? =
          (directory, launch.args) :: more.filterMap Event.started? := fun _ => rfl
      rw [hbegun, hbegun, started_printed, started_printed]
    · simp only [if_neg hend]
      exact h.asked hkeeps rfl

theorem parallel_compileAndMove (hn : IsPiece n) (h : Beside fs₀ s t)
    (hk : i.settings.kindOf (dir₁.join n) = .source)
    (hlimits : i.settings.SameLimits dir₁ dir₂ n) :
    Parallel fs₀ (fun r r' => r.1.notes = r'.1.notes ∧ r.2 = r'.2)
      (i.compileAndMove (dir₁.join n) s) (i.compileAndMove (dir₂.join n) t) := by
  have hk₂ : i.settings.kindOf (dir₂.join n) = .source :=
    (i.settings.kindOf_join_eq dir₂ dir₁ hn).trans hk
  obtain ⟨up₁, hp₁, hne₁, hd₁⟩ := exists_parent_join g.linkless g.left hn
  obtain ⟨up₂, hp₂, hne₂, hd₂⟩ := exists_parent_join g.linkless g.right hn
  obtain ⟨-, -, -, -, -, ha₁⟩ := Settings.exists_stem_of_source hn hk
  obtain ⟨-, -, -, -, -, ha₂⟩ := Settings.exists_stem_of_source hn hk₂
  rw [Path.withFileName_join hn hp₁] at ha₁
  rw [Path.withFileName_join hn hp₂] at ha₂
  have hx := Settings.isRelative_artifactName hn hk
  have hreach := hlimits.artifact hk _ _ ha₁ ha₂
  generalize i.settings.artifactName n = x at ha₁ ha₂ hx hreach
  have hway : ∀ fs, SameDirectories fs₀ fs → fs.SameWay i.here (up₁.join x) (up₂.join x) :=
    fun fs hs => sameWay_join hs.linkless' (hs.directoryAt hd₁) (hs.directoryAt hd₂) hx hreach
  have hname : ∀ fs, SameDirectories fs₀ fs → (up₁.join x).fileName? = (up₂.join x).fileName? ∨
      ∃ e, fs.read i.here (up₁.join x) = .error e := by
    intro fs hs
    by_cases hsilent : dropTrailing Path.silent
        ((pieces Bytes.slash x).1 :: (pieces Bytes.slash x).2) = []
    · exact Or.inr (read_join_of_silent hs.linkless' (hs.directoryAt hd₁) hx hsilent)
    · exact Or.inl (Path.fileName?_join_eq hx hne₁ hne₂ hsilent)
  refine (g.parallel_compile hn h hp₁ hp₂ hne₁ hne₂ hd₁ hd₂ ha₁ ha₂).bind ?_
  rintro ⟨_, notes⟩ ⟨_, notes'⟩ s' t' ⟨rfl, rfl, hnotes⟩ h'
  refine (parallel_moveArtifact h' hway (hname _ h'.same)).bind ?_
  rintro dest dest' s'' t'' hdest h''
  exact ⟨⟨hnotes, hdest⟩, h''⟩

/-- A turn comes to the same under both spellings, however the files are counted. -/
theorem parallel_handleListed (hn : IsPiece n) (h : Beside fs₀ s t)
    (hk : i.settings.kindOf (dir₁.join n) ≠ .ignored) (hlimits : i.settings.SameLimits dir₁ dir₂ n)
    (total number total' number' : Nat) :
    Parallel fs₀ (fun r r' => ∃ e e', r = some e ∧ r' = some e' ∧ LikeEntry e e')
      (i.handleListed total (dir₁.join n) number s)
      (i.handleListed total' (dir₂.join n) number' t) := by
  have hkinds := i.settings.kindOf_join_eq dir₂ dir₁ hn
  have hnames : listedName (dir₁.join n) = listedName (dir₂.join n) := by
    simp only [listedName, Path.fileName?_join _ hn]
  have hsaid : Beside fs₀ (i.announcing total (dir₁.join n) number s)
      (i.announcing total' (dir₂.join n) number' t) := by
    unfold announcing
    rw [hkinds, if_neg hk, if_neg hk]
    exact h.print _ _
  rw [run_handleListed, run_handleListed, hkinds]
  generalize i.announcing total (dir₁.join n) number s = s at hsaid
  generalize i.announcing total' (dir₂.join n) number' t = t at hsaid
  cases hkind : i.settings.kindOf (dir₁.join n) with
  | ignored => exact absurd hkind hk
  | precompiled =>
    have hway := sameWay_join hsaid.same.linkless' (hsaid.same.directoryAt g.left)
      (hsaid.same.directoryAt g.right) hn.isRelative hlimits.listed
    have hcopy := parallel_copyModule (i := i) hsaid hway
      (Or.inl ((Path.fileName?_join dir₁ hn).trans (Path.fileName?_join dir₂ hn).symm))
    rw [handle_precompiled, handle_precompiled]
    cases hc : i.copyModule (dir₁.join n) s <;> cases hc' : i.copyModule (dir₂.join n) t <;>
      rw [hc, hc'] at hcopy
    · exact ⟨⟨_, _, rfl, rfl, hnames, hcopy.1⟩, hcopy.2⟩
    · exact hcopy.elim
    · exact hcopy.elim
    · exact hcopy
  | source =>
    have hmove := g.parallel_compileAndMove hn hsaid hkind hlimits
    rw [handle_source, handle_source]
    cases hc : i.compileAndMove (dir₁.join n) s <;>
      cases hc' : i.compileAndMove (dir₂.join n) t <;> rw [hc, hc'] at hmove
    · exact ⟨⟨_, _, rfl, rfl, hnames, hmove.1⟩, hmove.2⟩
    · exact hmove.elim
    · exact hmove.elim
    · exact ⟨⟨_, _, rfl, rfl, hnames, trivial⟩, hmove.print _ _⟩

end Spelled

end Installer

end ModuleInstall
