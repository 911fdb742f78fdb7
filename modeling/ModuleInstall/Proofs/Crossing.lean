import ModuleInstall.Proofs.Calls
import ModuleInstall.Proofs.Ensuring
import ModuleInstall.Proofs.Sample
import ModuleInstall.Proofs.Turns

/-! # A module that is lost on its way into the tree -/

namespace ModuleInstall

open FileSystem ModuleInstall.Action

/-- The way of a path goes over the entry that another path names. -/
def FileSystem.Crosses (fs : FileSystem) (here : Location) (p way : Path) : Prop :=
  ∃ dir n slash, fs.walk .kept here p = .ok (.entry dir n slash) ∧
    n :: dir ∈ fs.trail .followed here way

namespace Installer

variable {i : Installer} {source dest path : Path} {artifact : Artifact} {s s' : Session}

theorem crosses_of_copy (h : i.copyModule path s = .ok dest s') :
    s'.files.Crosses i.here path dest ↔ s.files.Crosses i.here path dest := by
  obtain ⟨n, content, -, rfl, hread, hwrite⟩ := copyModule_ok h
  obtain ⟨dir, m, x, hw, -, hwas, hnow, hothers⟩ := write_spec hwrite
  have hfill := filled_of_file hwas hnow hothers
  have htrail := (walk_of_filled hfill hw).2
  obtain ⟨_, hst⟩ := read_eq_ok_iff.1 hread
  obtain ⟨_, hp, -⟩ := stat_eq_ok_iff.1 hst
  obtain ⟨place, hkept⟩ := walk_kept_of_followed hp
  have hkept' := (walk_of_filled hfill hkept).1
  unfold Crosses
  rw [hkept, hkept', htrail]

theorem moveArtifact_spec (h : i.moveArtifact artifact s = .ok dest s') :
    ∃ content, s.files.read i.here artifact.path = .ok content ∧
      (∀ last, s'.files.find last i.here artifact.path = .error (.code .noEntry)) ∧
      (s.files.Crosses i.here artifact.path dest →
        s'.files.read i.here dest = .error (.code .noEntry)) ∧
      (¬ s.files.Crosses i.here artifact.path dest → s'.files.read i.here dest = .ok content) := by
  obtain ⟨s₁, hc, hrm⟩ := moveArtifact_ok h
  have hcross := crosses_of_copy hc
  obtain ⟨n, content, -, rfl, hread, hwrite⟩ := copyModule_ok hc
  obtain ⟨dir, m, node, hw, -, hx, hd, hfs⟩ := remove_spec hrm
  have hlost := lost_erase hx hd
  rw [← hfs] at hlost
  refine ⟨content, hread, find_of_remove hrm, fun h => ?_, fun h => ?_⟩
  · rw [← hcross] at h
    obtain ⟨dir', m', slash, hw', ht⟩ := h
    rw [hw] at hw'
    cases hw'
    have hfind := find_of_lost hlost ht
    simp [FileSystem.read, stat, hfind, Except.map]
  · have hoff : m :: dir ∉ s₁.files.trail .followed i.here (i.settings.tree.modulePath n) := by
      intro ht
      exact h (hcross.1 ⟨dir, m, false, hw, ht⟩)
    obtain ⟨dir', m', x, hw', -, -, hnow, -⟩ := write_spec hwrite
    have hthere := walk_of_write hwrite hw'
    have hne : m' :: dir' ≠ m :: dir := by
      intro he
      exact hoff (he ▸ mem_trail_of_walk (by simp [LastLink.passesOver]) hthere)
    refine read_eq_ok_iff.2 ⟨x, stat_eq_ok_iff.2 ⟨.entry dir' m' false, ?_, ?_⟩⟩
    · rw [walk_of_off hlost.others hoff, hthere]
    · refine nodeAt_eq_ok_iff.2 ⟨?_, by simp⟩
      rw [Place.location, hlost.others _ hne, hnow]

/-! ## Reports of an installed source -/

/-- What is done in session `s` reports a source as installed. The artifact is moved in the file
system `before`, and the session `s'` is left. -/
inductive Installs (i : Installer) (source : Path) (artifact : Artifact) (dest : Path)
    (s : Session) : FileSystem → Session → Prop
  | built {t s' : Session} :
      i.buildModule source true s = .ok (.installed artifact dest) s' →
      i.provision (i.afterCompiling source (s.record [.printed (.stage "compile")])) = .ok () t →
      Installs i source artifact dest s t.files s'
  | single {s' : Session} :
      i.installFile source s = .ok (some (.installed artifact dest)) s' →
      Installs i source artifact dest s (i.compiler s.files source).files s'
  | listed {total number : Nat} {name : String} {s' : Session} :
      i.handleListed total source number s = .ok (some (name, .installed artifact dest)) s' →
      Installs i source artifact dest s (i.compiler s.files source).files s'

theorem buildModule_installed {t : Session}
    (h : i.buildModule source true s = .ok (.installed artifact dest) s')
    (hp : i.provision (i.afterCompiling source (s.record [.printed (.stage "compile")])) = .ok () t) :
    (i.compiler s.files source).result = .ok artifact ∧
      i.moveArtifact artifact (t.record [.printed (.stage "install")]) = .ok dest s' := by
  unfold buildModule at h
  rw [run_bind_of_ok (run_print _ _)] at h
  obtain ⟨a, s₁, hc, h⟩ := bind_eq_ok_iff.1 h
  obtain ⟨hr, rfl⟩ := compile_ok hc
  rw [if_pos rfl, run_bind_of_ok hp, run_bind_of_ok (run_print _ _)] at h
  obtain ⟨d, s₂, hm, h⟩ := bind_eq_ok_iff.1 h
  cases h
  exact ⟨hr, hm⟩

theorem installs_of_buildModule
    (h : i.buildModule source true s = .ok (.installed artifact dest) s') :
    ∃ before, i.Installs source artifact dest s before s' := by
  have hb := h
  unfold buildModule at h
  rw [run_bind_of_ok (run_print _ _)] at h
  obtain ⟨a, s₁, hc, h⟩ := bind_eq_ok_iff.1 h
  obtain ⟨-, rfl⟩ := compile_ok hc
  rw [if_pos rfl] at h
  obtain ⟨_, t, hp, -⟩ := bind_eq_ok_iff.1 h
  exact ⟨t.files, .built hb hp⟩

theorem handle_installed {kind : ModuleKind}
    (h : i.handle path kind s = .ok (some (.installed artifact dest)) s') :
    i.compileAndMove path s = .ok (artifact, dest) s' := by
  cases kind with
  | source =>
    rw [handle_source] at h
    split at h
    · rename_i a d t hm
      cases h
      exact hm
    · cases h
  | precompiled =>
    rw [handle_precompiled] at h
    split at h <;> cases h
  | ignored => cases h

theorem handleListed_installed {total number : Nat} {name : String}
    (h : i.handleListed total path number s = .ok (some (name, .installed artifact dest)) s') :
    i.compileAndMove path (i.announcing total path number s) = .ok (artifact, dest) s' := by
  rw [run_handleListed] at h
  split at h
  · cases h
  · rename_i outcome t hh
    cases h
    exact handle_installed hh
  · cases h

/-- Every report of an installed source comes from a move of its artifact. Between the compiler and
the move no file gets other content. -/
theorem moveArtifact_of_installs {before : FileSystem}
    (h : i.Installs source artifact dest s before s') :
    (∃ t, t.files = before ∧ i.moveArtifact artifact t = .ok dest s') ∧
      ∀ content content',
        (i.compiler s.files source).files.read i.here artifact.path = .ok content →
        before.read i.here artifact.path = .ok content' → content' = content := by
  cases h with
  | @built t _ h hp =>
    obtain ⟨hr, hm⟩ := buildModule_installed h hp
    refine ⟨⟨t.record [.printed (.stage "install")], rfl, hm⟩, fun content content' h₁ h₂ => ?_⟩
    exact read_of_provision hp h₁ h₂
  | single h =>
    refine ⟨⟨_, rfl, (compileAndMove_ok (handle_installed h)).2⟩, fun content content' h₁ h₂ => ?_⟩
    rw [h₁] at h₂
    cases h₂
    rfl
  | @listed total number name _ h =>
    obtain ⟨-, hm⟩ := compileAndMove_ok (handleListed_installed h)
    refine ⟨⟨_, ?_, hm⟩, fun content content' h₁ h₂ => ?_⟩
    · rw [afterCompiling, files_announcing]
    · rw [h₁] at h₂
      cases h₂
      rfl

/-- A source that is reported as installed leaves no artifact. The bytes of the artifact can be read
from the tree exactly if the compiler has left any to be read, and if the way to the module does not
go over the artifact's entry. The second part says where the reports of a run come from. -/
theorem installed_readable_iff (i : Installer) :
    (∀ source artifact dest s before s', i.Installs source artifact dest s before s' →
      (∀ last, s'.files.find last i.here artifact.path = .error (.code .noEntry)) ∧
      ((∃ content, (i.compiler s.files source).files.read i.here artifact.path = .ok content ∧
          s'.files.read i.here dest = .ok content) ↔
        (∃ content, (i.compiler s.files source).files.read i.here artifact.path = .ok content) ∧
          ¬ before.Crosses i.here artifact.path dest)) ∧
    ∀ dir s report s', i.installAll dir s = .ok report s' →
      ∀ name artifact dest, (name, .installed artifact dest) ∈ report.entries →
        ∃ paths entries path number rest t t',
          i.Runs dir s paths entries ((path, number) :: rest) t ∧
          i.handleListed paths.length path number t =
            .ok (some (name, .installed artifact dest)) t' ∧
          i.Installs path artifact dest t (i.compiler t.files path).files t' := by
  constructor
  · intro source artifact dest s before s' h
    obtain ⟨⟨t, rfl, hm⟩, hsame⟩ := moveArtifact_of_installs h
    obtain ⟨content, hread, hgone, hlost, hkept⟩ := moveArtifact_spec hm
    refine ⟨hgone, ?_, ?_⟩
    · rintro ⟨content', hc, hd⟩
      refine ⟨⟨content', hc⟩, fun hcross => ?_⟩
      rw [hlost hcross] at hd
      cases hd
    · rintro ⟨⟨content', hc⟩, hcross⟩
      refine ⟨content', hc, ?_⟩
      rw [hkept hcross, hsame content' content hc hread]
  · intro dir s report s' h name artifact dest hmem
    obtain ⟨paths, s₁, hp, hl, hr⟩ := installAll_ok_iff.1 h
    obtain ⟨entries, path, number, rest, t, t', hr', hh⟩ := entries_of_reaches hr hmem
    exact ⟨paths, entries, path, number, rest, t, t', ⟨s₁, hp, hl, hr'⟩, hh, .listed hh⟩

theorem installed_readable_apart :
    ∃ before s', Sample.installer.Installs (Sample.path "w/A.java") { path := Sample.path "w/A.class" }
        (Sample.path "home/jil/lib/std/A.class") Sample.plain before s' ∧
      (∀ last, s'.files.find last [] (Sample.path "w/A.class") = .error (.code .noEntry)) ∧
      s'.files.read [] (Sample.path "home/jil/lib/std/A.class") = .ok [0x61] ∧
      ¬ before.Crosses [] (Sample.path "w/A.class") (Sample.path "home/jil/lib/std/A.class") := by
  have hbuilt : value? (Sample.installer.buildModule (Sample.path "w/A.java") true Sample.plain) =
      some (.installed { path := Sample.path "w/A.class" }
        (Sample.path "home/jil/lib/std/A.class")) := by decide +kernel
  have hdest : ((after (Sample.installer.buildModule (Sample.path "w/A.java") true
      Sample.plain)).files.read [] (Sample.path "home/jil/lib/std/A.class")).toOption =
      some [0x61] := by decide +kernel
  have hread : ((Sample.installer.compiler Sample.plain.files (Sample.path "w/A.java")).files.read []
      (Sample.path "w/A.class")).toOption = some [0x61] := by decide +kernel
  obtain ⟨before, hi⟩ := installs_of_buildModule (value?_eq_some_iff.1 hbuilt)
  obtain ⟨hgone, hiff⟩ := (installed_readable_iff Sample.installer).1 _ _ _ _ _ _ hi
  have hdest := Sample.eq_ok_of_toOption hdest
  exact ⟨before, _, hi, hgone, hdest, (hiff.1 ⟨_, Sample.eq_ok_of_toOption hread, hdest⟩).2⟩

/-- A module whose place is a link to its artifact is lost. -/
theorem installed_unreadable_linked :
    ∃ before s', Sample.installer.Installs (Sample.path "w/A.java") { path := Sample.path "w/A.class" }
        (Sample.path "home/jil/lib/std/A.class") Sample.linked before s' ∧
      (Sample.installer.compiler Sample.linked.files (Sample.path "w/A.java")).files.read []
        (Sample.path "w/A.class") = .ok [0x61] ∧
      ∀ content, s'.files.read [] (Sample.path "home/jil/lib/std/A.class") ≠ .ok content := by
  have hbuilt : value? (Sample.installer.buildModule (Sample.path "w/A.java") true Sample.linked) =
      some (.installed { path := Sample.path "w/A.class" }
        (Sample.path "home/jil/lib/std/A.class")) := by decide +kernel
  have hdest : ((after (Sample.installer.buildModule (Sample.path "w/A.java") true
      Sample.linked)).files.read [] (Sample.path "home/jil/lib/std/A.class")).toOption =
      none := by decide +kernel
  have hread : ((Sample.installer.compiler Sample.linked.files (Sample.path "w/A.java")).files.read []
      (Sample.path "w/A.class")).toOption = some [0x61] := by decide +kernel
  obtain ⟨before, hi⟩ := installs_of_buildModule (value?_eq_some_iff.1 hbuilt)
  refine ⟨before, _, hi, Sample.eq_ok_of_toOption hread, fun content hc => ?_⟩
  rw [hc] at hdest
  cases hdest

end Installer

end ModuleInstall
