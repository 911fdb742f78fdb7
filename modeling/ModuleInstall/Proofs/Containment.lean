import Mathlib.Logic.Relation
import ModuleInstall.Proofs.Relating
import ModuleInstall.Proofs.Sample
import ModuleInstall.Proofs.Sorting

/-! # Where modules are written -/

namespace ModuleInstall

open FileSystem ModuleInstall.Action
open Bytes (slash dot)

/-! ## The levels -/

namespace Path

variable {n : Bytes}

theorem filter_dropTrailing_silent (ps : List Bytes) :
    (dropTrailing silent ps).filter (fun piece => !silent piece) =
      ps.filter fun piece => !silent piece := by
  obtain ⟨t, ht, hs⟩ := exists_dropTrailing silent ps
  have hnone : (t.filter fun piece => !silent piece) = [] := by
    rw [List.filter_eq_nil_iff]
    intro piece hp
    simp [hs piece hp]
  conv => rhs; rw [ht, List.filter_append, hnone, List.append_nil]

theorem components_ofPieces {first : Bytes} {others : List Bytes} (hf : slash ∉ first)
    (ho : ∀ piece ∈ others, slash ∉ piece) :
    (ofPieces first others).components =
      (if first = [] then .root else .ofPiece first) ::
        (others.filter fun piece => !silent piece).map Component.ofPiece := by
  unfold ofPieces
  by_cases hboth : first = [] ∧ others = []
  · rw [if_pos hboth, hboth.1, hboth.2]
    rfl
  · rw [if_neg hboth, components, pieces_glue hf ho]
    by_cases hfirst : first = []
    · simp [hfirst, show others ≠ [] from fun h => hboth ⟨hfirst, h⟩]
    · simp [hfirst]

theorem same_parent?_join (p : Path) (h : IsPiece n) :
    ∃ above, (p.join n).parent? = some above ∧ above.Same p := by
  by_cases hp : p.bytes = []
  · obtain ⟨bytes⟩ := p
    obtain rfl : bytes = [] := hp
    have hn : pieces slash n = (n, []) := pieces_of_not_mem h.no_slash
    rw [join_of_empty h.isRelative]
    exact ⟨⟨[]⟩, by simp [parent?, splitLast, tailPieces, hn, dropTrailing, h.ne_nil], rfl⟩
  · obtain ⟨q, hq, hor⟩ := exists_join h.isRelative hp
    have hno := not_mem_pieces slash q
    obtain ⟨t, ht, -⟩ := exists_dropTrailing silent (pieces slash q).2
    have hkept : ∀ piece ∈ dropTrailing silent (pieces slash q).2, slash ∉ piece := by
      intro piece hm
      refine hno.2 piece ?_
      rw [ht]
      exact List.mem_append_left _ hm
    rw [hq, parent?, splitLast_append q h]
    refine ⟨_, rfl, ?_⟩
    rw [Same, components_ofPieces hno.1 hkept, filter_dropTrailing_silent,
      components_of_before hor hp]
    rfl

end Path

namespace Tree

/-- Each level lies directly in the one before it, and the first in the home directory. -/
structure NestedIn (t : Tree) (home : Path) : Prop where
  std : t.std.parent? = some t.lib
  lib : t.lib.parent? = some t.root
  root : ∃ above, t.root.parent? = some above ∧ above.Same home

theorem isPiece_jil : IsPiece (Utf8.encode "jil") := by decide

theorem isPiece_lib : IsPiece (Utf8.encode "lib") := by decide

theorem isPiece_std : IsPiece (Utf8.encode "std") := by decide

theorem nested_under (home : Path) : (under home).NestedIn home where
  std := Path.parent?_join_join _ isPiece_lib isPiece_std
  lib := Path.parent?_join_join _ isPiece_jil isPiece_lib
  root := Path.same_parent?_join _ isPiece_jil

theorem fileName?_modulePath (t : Tree) {n : Bytes} (h : IsPiece n) :
    (t.modulePath n).fileName? = some n :=
  Path.fileName?_join _ h

theorem parent?_modulePath (t : Tree) {n : Bytes} (h : IsPiece n) :
    (t.modulePath n).parent? = some t.std :=
  Path.parent?_join_join _ isPiece_std h

end Tree

namespace Installer

/-! ## The moves -/

/-- One move of the installer or of its compiler. -/
inductive Move (i : Installer) : Session → Session → Prop
  | print (s : Session) (record : Record) : Move i s (s.record [.printed record])
  | compile (s : Session) (source : Path) : Move i s (i.afterCompiling source s)
  /-- What stands in the way of a level is removed. -/
  | clear {s : Session} {level : Path} {files : FileSystem} :
      level ∈ i.settings.tree.levels → s.files.remove i.here level = .ok files →
      Move i s { s with files }
  | make {s : Session} {level : Path} {files : FileSystem} :
      level ∈ i.settings.tree.levels → s.files.makeDirectory i.here level = .ok files →
      Move i s { s with files }
  /-- A file is written directly below the last level, under the name of the one it is copied from
  and with its content, or with the beginning of it that there is room for. -/
  | write {s : Session} {source dest : Path} {n : Name} {content kept : Bytes}
      {files : FileSystem} :
      source.fileName? = some n → dest.fileName? = some n →
      dest.parent? = some i.settings.tree.std → s.files.read i.here source = .ok content →
      kept <+: content → s.files.write i.here dest kept = .ok files → Move i s { s with files }
  | remove {s : Session} {artifact : Artifact} {files : FileSystem} :
      i.Reports artifact → s.files.remove i.here artifact.path = .ok files →
      Move i s { s with files }

/-- The moves that follow one another. -/
abbrev Moves (i : Installer) : Session → Session → Prop := Relation.ReflTransGen i.Move

theorem allowsAll_moves (i : Installer) : i.AllowsAll i.Moves where
  refl _ := .refl
  trans _ _ _ := .trans
  detail s _ := .single (.print s _)
  warning s _ := .single (.print s _)
  print s record := .single (.print s record)
  compile s source := .single (.compile s source)
  clear _ _ _ hl hf := .single (.clear hl hf)
  make _ _ _ hl hf := .single (.make hl hf)
  write _ _ _ _ _ _ hn hr hk hw := by
    have hpiece := Path.isPiece_of_fileName? hn
    exact .single (.write hn (i.settings.tree.fileName?_modulePath hpiece)
      (i.settings.tree.parent?_modulePath hpiece) hr hk hw)
  remove _ _ _ ha hf := .single (.remove ha hf)

theorem copyModule_of_unnamed (i : Installer) {source : Path} (h : source.fileName? = none)
    (s : Session) : i.copyModule source s = .error (.file .place source .noFileName) s := by
  rw [run_copyModule, h]

theorem moveArtifact_of_unnamed (i : Installer) {artifact : Artifact}
    (h : artifact.path.fileName? = none) (s : Session) :
    i.moveArtifact artifact s = .error (.file .place artifact.path .noFileName) s := by
  rw [run_moveArtifact, copyModule_of_unnamed i h]

/-- Whatever the home directory, its levels lie in one another, the place of a module lies directly
in the last one under the module's own name, and a path without a file name is refused before
anything is read. A run of the installer is a chain of moves, none of which writes anywhere else. -/
theorem writes_contained (i : Installer) :
    i.settings.tree.NestedIn i.settings.home ∧
    (∀ source n, Path.fileName? source = some n →
      IsPiece n ∧ (i.settings.tree.modulePath n).fileName? = some n ∧
        (i.settings.tree.modulePath n).parent? = some i.settings.tree.std) ∧
    (∀ source : Path, source.fileName? = none → ∃ e : InstallError,
      e.message = "install " ++ source.display ++ ": path has no file name" ∧
      (∀ s, i.copyModule source s = .error e s) ∧
      ∀ notes s, i.moveArtifact { path := source, notes } s = .error e s) ∧
    ∀ s, (∀ source install, i.Moves s (after (i.buildModule source install s))) ∧
      (∀ path, i.Moves s (after (i.installFile path s))) ∧
      ∀ dir, i.Moves s (after (i.installAll dir s)) := by
  have hmoves := i.allowsAll_moves
  refine ⟨Tree.nested_under _, fun source n hn => ?_, fun source hn => ?_, fun s => ⟨?_, ?_, ?_⟩⟩
  · have hpiece := Path.isPiece_of_fileName? hn
    exact ⟨hpiece, i.settings.tree.fileName?_modulePath hpiece,
      i.settings.tree.parent?_modulePath hpiece⟩
  · refine ⟨.file .place source .noFileName, ?_, copyModule_of_unnamed i hn,
      fun notes => moveArtifact_of_unnamed i hn⟩
    simp [InstallError.message, FileTask.words, SystemError.noFileName, SystemError.message,
      String.append_assoc]
  · exact fun source install => hmoves.relates_buildModule source install s
  · exact fun path => hmoves.relates_installFile path s
  · exact fun dir => hmoves.relates_installAll dir s

theorem writes_contained_odd :
    let i : Installer := { Sample.writer with settings := { home := ⟨[]⟩ } }
    let source : Path := ⟨[slash, dot, dot, slash, 0xFF, 0x00, slash, dot]⟩
    i.settings.tree.std = Sample.path "jil/lib/std" ∧
      source.fileName? = some [0xFF, 0x00] ∧
      (i.settings.tree.modulePath [0xFF, 0x00]).parent? = some (Sample.path "jil/lib/std") ∧
      (Sample.path "w/..").fileName? = none ∧
      (∃ e : InstallError, e.message = "install w/..: path has no file name" ∧
        ∀ s, i.copyModule (Sample.path "w/..") s = .error e s) ∧
      i.Moves Sample.mixed (after (i.installAll (Sample.path "w") Sample.mixed)) := by
  intro i source
  have hstd : i.settings.tree.std = Sample.path "jil/lib/std" := by decide
  have hnamed : source.fileName? = some [0xFF, 0x00] := by decide
  have hbare : (Sample.path "w/..").fileName? = none := by decide
  obtain ⟨-, hplace, hrefused, hruns⟩ := writes_contained i
  obtain ⟨e, hmessage, hcopy, -⟩ := hrefused _ hbare
  refine ⟨hstd, hnamed, ?_, hbare, ⟨e, ?_, hcopy⟩, (hruns _).2.2 _⟩
  · rw [(hplace source _ hnamed).2.2, hstd]
  · rw [hmessage]
    decide +kernel

end Installer

end ModuleInstall
