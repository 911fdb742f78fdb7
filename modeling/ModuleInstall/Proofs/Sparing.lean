import ModuleInstall.Proofs.Programs
import ModuleInstall.Proofs.Relating
import ModuleInstall.Proofs.Respelling
import ModuleInstall.Proofs.Safekeeping

/-! # The source is spared -/

namespace ModuleInstall

open FileSystem ModuleInstall.Action

/-! ## Where a path leads without links -/

/-- Where a step leads. -/
def Step.from (loc : Location) : Step → Location
  | .here => loc
  | .up => loc.tail
  | .name n => n :: loc

/-- Where a path leads if there are no links. -/
def Path.landing (here : Location) (p : Path) : Location :=
  (Route.ofBytes p.bytes).steps.foldl Step.from
    (if (Route.ofBytes p.bytes).fromRoot then [] else here)

theorem Path.landing_join (here : Location) (p : Path) {n : Bytes} (hn : IsPiece n) :
    (p.join n).landing here = n :: p.landing here := by
  obtain ⟨hsteps, -⟩ := Path.ofBytes_piece hn
  by_cases hp : p.bytes = []
  · obtain ⟨bytes⟩ := p
    obtain rfl : bytes = [] := hp
    rw [Path.join_of_empty hn.isRelative, landing, hsteps, Path.fromRoot_of_relative hn.isRelative]
    rfl
  · simp only [landing, Path.ofBytes_join hp hn.isRelative, hsteps, List.foldl_append]
    rfl

namespace FileSystem

variable {fs fs' : FileSystem} {last : LastLink} {slash : Bool} {here loc l : Location} {p q : Path}
  {steps : List Step} {place : Place} {content : Bytes} {done : List Path}

theorem location_of_ends (h : fs.stretch last slash loc steps = .ends place) :
    place.location = steps.foldl Step.from loc := by
  induction loc, steps using walk_induction with
  | nil loc =>
    cases h
    rfl
  | here loc rest ih => exact ih h
  | up loc rest ih => exact ih h
  | last loc n =>
    rw [stretch_last] at h
    repeat' split at h
    all_goals cases h
    all_goals rfl
  | name loc n rest hr ih =>
    rw [stretch_name _ _ _ _ _ hr] at h
    split at h
    · cases h
    rcases hx : fs.node? (n :: loc) with _ | ⟨_ | _ | _ | _⟩ <;> simp only [hx] at h
    case some.directory => exact ih h
    all_goals cases h

namespace Linkless

variable (h : fs.Linkless)
include h

theorem location_of_walk (hw : fs.walk last here p = .ok place) :
    place.location = p.landing here := by
  obtain ⟨route, hr, hs⟩ := h.walk_eq_ok_iff_stretch.1 hw
  obtain ⟨-, rfl⟩ := Path.route_eq_ok hr
  exact location_of_ends hs

theorem eq_landing_of_names (hn : fs.Names here p l) : l = p.landing here := by
  obtain ⟨dir, n, slash, hw, rfl⟩ := hn
  exact h.location_of_walk hw

theorem node?_landing_of_stat {node : Node} (hst : fs.stat here p = .ok node) :
    fs.node? (p.landing here) = some node := by
  obtain ⟨place, hw, hn⟩ := stat_eq_ok_iff.1 hst
  rw [← h.location_of_walk hw]
  exact (nodeAt_eq_ok_iff.1 hn).1

end Linkless

/-! ## A content that stays -/

/-- There are no links, and a path leads to a file of a given content. -/
structure Spares (fs : FileSystem) (here : Location) (p : Path) (content : Bytes) : Prop where
  linkless : fs.Linkless
  read : fs.read here p = .ok content

theorem Spares.of_others (h : fs.Spares here p content) (hl : fs'.Linkless)
    (hw : ∀ place, fs.walk .followed here p = .ok place → fs'.walk .followed here p = .ok place)
    (hx : fs'.node? (p.landing here) = fs.node? (p.landing here)) :
    fs'.Spares here p content where
  linkless := hl
  read := by
    obtain ⟨x, hst⟩ := read_eq_ok_iff.1 h.read
    obtain ⟨place, hp, hn⟩ := stat_eq_ok_iff.1 hst
    refine read_eq_ok_iff.2 ⟨x, stat_eq_ok_iff.2 ⟨place, hw place hp, ?_⟩⟩
    rw [nodeAt_eq_ok_iff] at hn ⊢
    rw [h.linkless.location_of_walk hp] at hn ⊢
    rwa [hx]

theorem Spares.of_write {written : Bytes} (h : fs.Spares here p content)
    (hq : q.landing here ≠ p.landing here) (hw : fs.write here q written = .ok fs') :
    fs'.Spares here p content := by
  have hsame := SameDirectories.of_write h.linkless hw
  obtain ⟨dir, n, x, hwalk, -, -, -, hothers⟩ := write_spec hw
  refine h.of_others hsame.linkless' (fun _ => hsame.walk) (hothers _ fun he => hq ?_)
  rw [he, ← h.linkless.location_of_walk hwalk]
  rfl

theorem Spares.of_remove (h : fs.Spares here p content) (hq : q.landing here ≠ p.landing here)
    (hr : fs.remove here q = .ok fs') : fs'.Spares here p content := by
  have hsame := SameDirectories.of_remove h.linkless hr
  obtain ⟨dir, n, node, hwalk, -, hx, hd, rfl⟩ := remove_spec hr
  refine h.of_others hsame.linkless' (fun _ => hsame.walk)
    ((lost_erase hx hd).others _ fun he => hq ?_)
  rw [he, ← h.linkless.location_of_walk hwalk]
  rfl

theorem Spares.of_shaped (h : fs.Spares here p content) (hs : Shaped here done fs fs')
    (hdone : ∀ level ∈ done, level.landing here ≠ p.landing here) :
    fs'.Spares here p content where
  linkless := hs.linkless h.linkless
  read := by
    have hl := hs.linkless h.linkless
    obtain ⟨x, hst⟩ := read_eq_ok_iff.1 h.read
    rcases hs.stands _ _ hst with hst' | hst'
    · exact read_eq_ok_iff.2 ⟨x, hst'⟩
    · have hwas := h.linkless.node?_landing_of_stat hst
      have hnow := hl.node?_landing_of_stat hst'
      obtain ⟨⟨level, hm, hnames⟩, -⟩ := hs.changed (p.landing here) (by rw [hwas, hnow]; simp)
      exact absurd (hl.eq_landing_of_names hnames).symm (hdone level hm)

end FileSystem

/-! ## A build -/

namespace Installer

variable {i : Installer} {m : Machine} {source : Path} {artifact : Artifact} {s : Session}
  {content : Bytes}

/-- A build does not come to a path: it is neither a level nor an entry of the last one. -/
structure OutOfTheWay (i : Installer) (p : Path) : Prop where
  level : ∀ level ∈ i.settings.tree.levels, level.landing i.here ≠ p.landing i.here
  entry : ∀ n, n :: i.settings.tree.std.landing i.here ≠ p.landing i.here

/-- A path that is spared before is spared after. -/
def Sparing (i : Installer) (p : Path) (content : Bytes) (s s' : Session) : Prop :=
  s.files.Spares i.here p content → s'.files.Spares i.here p content

instance (i : Installer) (p : Path) (content : Bytes) :
    IsPreorder Session (i.Sparing p content) where
  refl _ h := h
  trans _ _ _ h h' hs := h' (h hs)

namespace OutOfTheWay

variable {p : Path} (hp : i.OutOfTheWay p)
include hp

theorem relates_copyModule (source : Path) :
    Relates (i.Sparing p content) (i.copyModule source) := by
  intro s h
  rcases i.files_after_copyModule source s with hsame | ⟨n, read, kept, hn, -, -, hw⟩
  · rwa [hsame]
  · refine h.of_write ?_ hw
    rw [Tree.modulePath, Path.landing_join _ _ (Path.isPiece_of_fileName? hn)]
    exact hp.entry n

theorem relates_moveArtifact (ha : artifact.path.landing i.here ≠ p.landing i.here) :
    Relates (i.Sparing p content) (i.moveArtifact artifact) :=
  .bind (hp.relates_copyModule _) fun _ =>
    .bind (.change fun _ _ hf h => h.of_remove ha hf) fun _ => .pure _

theorem relates_provision : Relates (i.Sparing p content) i.provision := by
  intro s h
  cases hrun : i.provision s with
  | ok u s' => exact h.of_shaped (shaped_of_provision hrun) hp.level
  | error e s' =>
    obtain ⟨done, hdone, hshaped⟩ := shaped_of_provision_error hrun
    exact h.of_shaped hshaped fun level hm => hp.level level (hdone hm)

end OutOfTheWay

/-- What the compiler has left of the source is there however the build ends. -/
theorem spares_of_buildModule (hp : i.OutOfTheWay source)
    (ha : ∀ artifact, (i.compiler s.files source).result = .ok artifact →
      artifact.path.landing i.here ≠ source.landing i.here)
    (h : (i.compiler s.files source).files.Spares i.here source content) (install : Bool) :
    (after (i.buildModule source install s)).files.Spares i.here source content := by
  have hc := i.run_compile source (s.record [.printed (.stage "compile")])
  rw [show (s.record [.printed (.stage "compile")]).files = s.files from rfl] at hc
  unfold buildModule
  rw [run_bind_of_ok (run_print _ _)]
  cases hr : (i.compiler s.files source).result with
  | error e =>
    rw [hr] at hc
    rw [run_bind_of_error hc]
    exact h
  | ok artifact =>
    rw [hr] at hc
    rw [run_bind_of_ok hc]
    cases install with
    | false => exact h
    | true =>
      refine Relates.bind hp.relates_provision (fun _ => ?_) _ h
      exact .bind (.print fun _ => id) fun _ =>
        .bind (hp.relates_moveArtifact (ha artifact hr)) fun _ => .pure _

/-- A source that is out of the way and not its own artifact is there after a build as it was
before, if the compiler has not touched it and left no links. -/
theorem buildModule_spares_source (hi : i.compiler = m.compiler i.settings i.here)
    (hp : i.OutOfTheWay source)
    (ha : ∀ a, i.settings.artifactPath source = .ok a → a.landing i.here ≠ source.landing i.here)
    (hl : (i.compiler s.files source).files.Linkless)
    (hr : s.files.read i.here source = .ok content)
    (hkept : (i.compiler s.files source).files.read i.here source = s.files.read i.here source)
    (install : Bool) :
    (after (i.buildModule source install s)).files.read i.here source = .ok content := by
  refine (spares_of_buildModule hp (fun artifact hresult => ?_) ⟨hl, hkept.trans hr⟩ install).read
  rw [hi] at hresult
  exact ha _ (Machine.artifactPath_of_compiler hresult)

theorem buildModule_spares_source_rooted :
    let source := Sample.path "/ww/A.java"
    ∀ install, (after (Sample.starter.buildModule source install Sample.rooted)).files.read []
      source = .ok [0x61] := by
  intro source install
  have hr : Sample.rooted.files.read [] source = .ok [0x61] :=
    Sample.eq_ok_of_toOption (by decide +kernel)
  have hr' : (Sample.starter.compiler Sample.rooted.files source).files.read [] source =
      .ok [0x61] :=
    Sample.eq_ok_of_toOption (by decide +kernel)
  have hp : Sample.starter.OutOfTheWay source := by
    refine ⟨by decide +kernel, fun n he => ?_⟩
    have hstd : Sample.starter.settings.tree.std.landing [] ≠ (source.landing []).tail := by
      decide +kernel
    exact hstd (congrArg List.tail he)
  have ha : ∀ a, Sample.starter.settings.artifactPath source = .ok a →
      a.landing [] ≠ source.landing [] := by
    intro a ha
    have hclass : Sample.starter.settings.artifactPath source = .ok (Sample.path "/ww/A.class") :=
      Sample.eq_ok_of_toOption (by decide +kernel)
    rw [Except.ok.inj (ha.symm.trans hclass)]
    decide +kernel
  exact buildModule_spares_source compiler_starter hp ha
    (plain_of_nodes (by decide +kernel)).linkless hr (hr'.trans hr.symm) install

end Installer

/-- A machine on which the program that compiles succeeds and does nothing. -/
def Sample.idle : Machine := Rehearsal.machine [path "/bin"] [{ copy := false }]

/-- A machine on which the program that compiles makes an artifact, and a link to the source in the
place where the module is to go. -/
def Sample.linker : Machine where
  searchPath := [path "/bin"]
  load content :=
    if content = Rehearsal.mark then
      some fun _ _ fs =>
        let link := Node.link (Utf8.encode "/ww/A.java")
        let fs := fs.orSame (fs.create [] (path "/home/jil/lib/std/A.class") link)
        { ending := .exit 0, output := [], errors := []
          files := fs.orSame (fs.write [] (path "/ww/A.class") [0x2A]) }
    else none

/-- The program that compiles, a file in the place of the first level, and one with the compiled
extension. -/
def Sample.misplaced : Session :=
  start [.program (path "/bin/javac") Rehearsal.mark, .file (path "/home/jil") [0x61],
    .file (path "/ww/A.class") [0x62]]

/-- A file in the place of a level gives way to it, a file with the compiled extension is moved as
its own artifact, and a link that the compiler leaves in the tree leads the copy to the source. -/
theorem Installer.buildModule_destroys_source :
    let settings := Sample.starter.settings
    let idle : Installer := { settings, compiler := Sample.idle.compiler settings [], here := [] }
    let linker : Installer :=
      { settings, compiler := Sample.linker.compiler settings [], here := [] }
    let loses (i : Installer) (source : Path) (s : Session) : Prop := ∃ content,
      s.files.Linkless ∧ s.files.read [] source = .ok content ∧
      (i.compiler s.files source).files.read [] source = .ok content ∧
      (after (i.buildModule source true s)).files.read [] source ≠ .ok content
    loses idle (Sample.path "/home/jil") Sample.misplaced ∧
      loses idle (Sample.path "/ww/A.class") Sample.misplaced ∧
      loses linker (Sample.path "/ww/A.java") Sample.rooted := by
  intro settings idle linker loses
  have hmisplaced : Sample.misplaced.files.Linkless := (plain_of_nodes (by decide +kernel)).linkless
  have hother : ∀ {x : Except SystemError Bytes} {content : Bytes},
      x.toOption ≠ some content → x ≠ .ok content := by
    rintro x content hx rfl
    exact hx rfl
  refine ⟨⟨[0x61], hmisplaced, ?_, ?_, hother ?_⟩, ⟨[0x62], hmisplaced, ?_, ?_, hother ?_⟩,
    ⟨[0x61], linkless_rooted, ?_, ?_, hother ?_⟩⟩
  · exact Sample.eq_ok_of_toOption (by decide +kernel)
  · exact Sample.eq_ok_of_toOption (by decide +kernel)
  · decide +kernel
  · exact Sample.eq_ok_of_toOption (by decide +kernel)
  · exact Sample.eq_ok_of_toOption (by decide +kernel)
  · decide +kernel
  · exact Sample.eq_ok_of_toOption (by decide +kernel)
  · exact Sample.eq_ok_of_toOption (by decide +kernel)
  · decide +kernel

end ModuleInstall
