import ModuleInstall.Compile.Compiler
import ModuleInstall.Proofs.Linkless
import ModuleInstall.Rehearsal.Machine

/-! # Programs that keep directories -/

namespace ModuleInstall

open FileSystem

namespace Machine

variable {m : Machine} {fs : FileSystem} {here directory : Location} {args : List Bytes}
  {started : Launch}

/-- No program of the machine makes or removes a directory or a link. -/
def KeepsDirectories (m : Machine) : Prop :=
  ∀ here invocation fs directory launch, fs.Linkless →
    m.start here invocation fs = .ok (directory, launch) →
      SameDirectories fs (launch.program directory launch.args fs).files

theorem load_of_launch {limit : Nat} {p : Path} {content : Bytes}
    (h : m.launch fs directory limit p content args = .ok started) :
    ∃ content, m.load content = some started.program := by
  induction limit generalizing p content args with
  | zero => cases h
  | succ limit ih =>
    unfold launch at h
    split at h
    · rename_i program hload
      cases h
      exact ⟨content, hload⟩
    · cases h
    · split at h
      · cases h
      · exact ih h

theorem load_of_launchAt {p : Path} (h : m.launchAt fs directory args p = .ok started) :
    ∃ content, m.load content = some started.program := by
  unfold launchAt at h
  split at h
  · cases h
  split at h
  · cases h
  · exact load_of_launch h

theorem load_of_launchIn {n : Bytes} {denied : Bool} {dirs : List Path}
    (h : m.launchIn fs directory args n denied dirs = .ok started) :
    ∃ content, m.load content = some started.program := by
  induction dirs generalizing denied with
  | nil => cases h
  | cons dir dirs ih =>
    unfold launchIn at h
    split at h
    · exact ih h
    · exact ih h
    · exact ih h
    · exact load_of_launchAt h

theorem load_of_launchNamed {n : Bytes} (h : m.launchNamed fs directory args n = .ok started) :
    ∃ content, m.load content = some started.program := by
  unfold launchNamed at h
  split at h
  · cases h
  split at h
  · exact load_of_launchAt h
  split at h
  · cases h
  · exact load_of_launchIn h

theorem load_of_start {i : Invocation} (h : m.start here i fs = .ok (directory, started)) :
    ∃ content, m.load content = some started.program := by
  unfold start at h
  split at h
  · split at h
    · cases h
    · rename_i directory' _
      cases hn : m.launchNamed fs directory' i.args i.program with
      | error e =>
        rw [hn] at h
        cases h
      | ok launch =>
        rw [hn] at h
        cases h
        exact load_of_launchNamed hn
  · cases h

theorem keepsDirectories_of_load (h : ∀ content program, m.load content = some program →
    ∀ directory args fs, fs.Linkless → SameDirectories fs (program directory args fs).files) :
    m.KeepsDirectories := by
  intro here invocation fs directory launch hfs hstart
  obtain ⟨content, hload⟩ := load_of_start hstart
  exact h content _ hload directory _ fs hfs

theorem artifactPath_of_compiler {settings : Settings} {source : Path} {artifact : Artifact}
    (h : (m.compiler settings here fs source).result = .ok artifact) :
    settings.artifactPath source = .ok artifact.path := by
  unfold compiler at h
  cases hs : m.start here (settings.invocation source) fs with
  | error e => simp [hs] at h
  | ok begun =>
    obtain ⟨directory, started⟩ := begun
    cases ha : settings.artifactPath source with
    | error fault =>
      simp only [hs, ha] at h
      split at h <;> cases h
    | ok a =>
      simp only [hs, ha] at h
      split at h <;> cases h
      rfl

end Machine

/-! ## Programs of rules -/

namespace Rehearsal

variable {fs : FileSystem}

theorem sameDirectories_orSame (h : fs.Linkless) {result : Except SystemError FileSystem}
    (hr : ∀ files, result = .ok files → SameDirectories fs files) :
    SameDirectories fs (fs.orSame result) := by
  cases result with
  | error e => exact .refl h
  | ok files => exact hr files rfl

theorem sameDirectories_copyFile (h : fs.Linkless) (here : Location) (source copy : Path) :
    SameDirectories fs (copyFile fs here source copy) := by
  unfold copyFile
  cases hw : fs.write here copy [] with
  | error e => exact .refl h
  | ok emptied =>
    have hs := SameDirectories.of_write h hw
    refine hs.trans (sameDirectories_orSame hs.linkless' fun files hf => ?_)
    cases hr : emptied.read here source with
    | error e =>
      rw [hr] at hf
      cases hf
    | ok content =>
      rw [hr] at hf
      exact .of_write hs.linkless' hf

theorem sameDirectories_run (h : fs.Linkless) {r : ProgramRule} (hr : r.edits = {})
    (directory : Location) (source : Bytes) :
    SameDirectories fs (r.run directory source fs).files := by
  have hstill : r.ownEdits.apply fs directory ⟨[]⟩ = ({ files := fs }, directory) := by
    unfold ProgramRule.ownEdits
    rw [hr]
    rfl
  unfold ProgramRule.run
  rw [hstill]
  dsimp only
  split
  · split
    · exact sameDirectories_copyFile h _ _ _
    · exact .refl h
  · exact .refl h

theorem keepsDirectories_machine (searchPath : List Path) {rules : List ProgramRule}
    (h : ∀ r ∈ rules, r.edits = {}) : (machine searchPath rules).KeepsDirectories := by
  refine Machine.keepsDirectories_of_load fun content loaded hload directory args fs hfs => ?_
  obtain ⟨-, rfl⟩ : content = mark ∧ program rules = loaded := by simpa [machine] using hload
  refine sameDirectories_run hfs ?_ directory _
  cases hr : rules.find? fun r => r.cue.isFor (args.headD []) with
  | none => rfl
  | some r => exact h r (List.mem_of_find?_eq_some hr)

end Rehearsal

end ModuleInstall
