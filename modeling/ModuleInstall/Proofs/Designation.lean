import ModuleInstall.Proofs.Respelling
import ModuleInstall.Proofs.Splitting

/-! # What the compiler and the installer call one entry -/

namespace ModuleInstall

open FileSystem
open Bytes (slash dot)

theorem Step.eq_of_ofPiece_eq_name {x : Bytes} {n : Name} (h : Step.ofPiece x = .name n) :
    x = n := by
  unfold Step.ofPiece at h
  repeat' split at h
  all_goals cases h
  rfl

namespace FileSystem

variable {fs fs' : FileSystem} {last : LastLink} {here loc D : Location} {p dir : Path} {x : Bytes}
  {slash slash' : Bool} {steps rest : List Step} {budget left : Nat} {place : Place}

/-! ## The links that are left -/

/-- Where a path leads if only so many links may be followed. -/
def walkWithin (fs : FileSystem) (last : LastLink) (budget : Nat) (here : Location) (p : Path) :
    Except SystemError Place :=
  match p.route with
  | .error e => .error e
  | .ok route =>
    (fs.walkFrom last budget route.slash (if route.fromRoot then [] else here)
      route.steps).mapError .code

theorem walkFrom_append (hr : rest ≠ []) (h : fs.Arrives .followed place budget slash loc steps)
    (hd : fs.IsDirectory place.location) (last : LastLink) (slash' : Bool) :
    ∃ left ≤ budget, fs.walkFrom last budget slash' loc (steps ++ rest) =
      fs.walkFrom last left slash' place.location rest := by
  induction h with
  | @ends budget slash loc steps hm =>
    refine ⟨budget, Nat.le_refl _, walkFrom_of_stretch_eq ?_⟩
    rw [stretch_append slash hr, hm]
    exact stretchOn_of_directory hd
  | @meets budget slash loc d steps more target hm hne _ ih =>
    have hm' : fs.stretch last slash' loc (steps ++ rest) = .meets d target (more ++ rest) := by
      rw [stretch_append slash hr, hm]
    obtain ⟨left, hle, hw⟩ := ih
    refine ⟨left, Nat.le_succ_of_le hle, ?_⟩
    -- What the target leaves to be walked comes in front of the rest.
    rw [walkFrom_of_meets hm', if_neg hne, if_neg (by simp [hr]), ← List.append_assoc]
    exact hw

theorem walk_join_within (hb : fs.Behind here p D) (hx : IsRelative x)
    (hlen : (p.join x).bytes.length < Route.maxLength) (last : LastLink) :
    ∃ left ≤ maxLinks, fs.walk last here (p.join x) = fs.walkWithin last left D ⟨x⟩ := by
  rcases hb with ⟨hempty, rfl⟩ | hd
  · obtain ⟨bytes⟩ := p
    obtain rfl : bytes = [] := hempty
    rw [Path.join_of_empty hx]
    exact ⟨maxLinks, Nat.le_refl _, rfl⟩
  obtain ⟨place, hw, rfl, hdir⟩ := directoryAt_eq_ok_iff.1 hd
  obtain ⟨_, hr, ha⟩ := walk_eq_ok_iff.1 hw
  obtain ⟨hne, rfl⟩ := Path.route_eq_ok hr
  unfold walk walkWithin
  by_cases h0 : (0 : UInt8) ∈ x
  · have hroute := Path.route_join_eq hr hx
    rw [if_pos h0] at hroute
    have hroute' : (Path.mk x).route = .error .nulInPath := by rw [Path.route, if_pos h0]
    exact ⟨maxLinks, Nat.le_refl _, by rw [hroute, hroute']⟩
  · have hroute := Path.route_join hr hx h0 hlen
    rw [hroute, Path.route_of_join hne hx hroute, Path.ofBytes_join hne hx]
    obtain ⟨left, hle, hw'⟩ :=
      walkFrom_append (Path.steps_ne_nil hx) ha hdir last (Route.ofBytes x).slash
    refine ⟨left, hle, ?_⟩
    dsimp only
    rw [hw', Path.fromRoot_of_relative hx]
    rfl

/-! ## One step from a directory -/

theorem ofBytes_of_no_slash (hne : x ≠ []) (hs : Bytes.slash ∉ x) :
    (Route.ofBytes x).steps = [Step.ofPiece x] ∧ (Route.ofBytes x).slash = false := by
  constructor
  · rw [Path.steps_ofBytes, pieces_of_not_mem hs]
    simp [Path.stepsOf, hne]
  · rw [Route.ofBytes, beq_eq_false_iff_ne]
    exact fun hl => hs (List.mem_of_getLast? hl)

theorem isRelative_of_no_slash (hne : x ≠ []) (hs : Bytes.slash ∉ x) : IsRelative x :=
  ⟨hne, fun hr => hs (List.mem_of_mem_head? hr)⟩

theorem walkFrom_kept_one (fs : FileSystem) (slash : Bool) (loc : Location) (step : Step)
    (budget more : Nat) :
    fs.walkFrom .kept budget slash loc [step] = fs.walkFrom .kept more slash loc [step] := by
  have hno : ∀ d target rest, fs.stretch .kept slash loc [step] ≠ .meets d target rest := by
    intro d target rest hm
    cases step with
    | here => cases hm
    | up => cases hm
    | name n =>
      rw [stretch_kept_last] at hm
      split at hm <;> cases hm
  cases hm : fs.stretch .kept slash loc [step] with
  | ends place => rw [walkFrom_of_ends hm, walkFrom_of_ends hm]
  | fails e => rw [walkFrom_of_fails hm, walkFrom_of_fails hm]
  | meets d target rest => exact absurd hm (hno d target rest)

theorem link_of_meets_one {step : Step} {d : Location} {target : Bytes}
    (h : fs.stretch last slash loc [step] = .meets d target rest) :
    ∃ n, step = .name n ∧ fs.node? (n :: loc) = some (.link target) := by
  cases step with
  | here => cases h
  | up => cases h
  | name n =>
    rw [stretch_last] at h
    refine ⟨n, rfl, ?_⟩
    repeat' split at h
    all_goals cases h
    assumption

/-- A path and a name in a directory are one and the same entry. Where links are followed, the path
can need more of them than the name, and then too many. -/
structure SameEntry (fs : FileSystem) (here : Location) (p : Path) (D : Location) (x : Bytes) :
    Prop where
  kept : fs.walk .kept here p = fs.walk .kept D ⟨x⟩
  followed : ∀ last, fs.walk last here p = fs.walk last D ⟨x⟩ ∨
    fs.walk last here p = .error (.code .tooManyLinks) ∧
      ∃ target, fs.node? (x :: D) = some (.link target)

theorem sameEntry_of_behind (hb : fs.Behind here p D) (hne : x ≠ []) (hs : Bytes.slash ∉ x)
    (hlen : (p.join x).bytes.length < Route.maxLength) : fs.SameEntry here (p.join x) D x := by
  have hx := isRelative_of_no_slash hne hs
  obtain ⟨hsteps, hslash⟩ := ofBytes_of_no_slash hne hs
  constructor
  · obtain ⟨left, -, hw⟩ := walk_join_within hb hx hlen .kept
    rw [hw, walkWithin, walk]
    cases hr : (Path.mk x).route with
    | error e => rfl
    | ok route =>
      obtain ⟨-, rfl⟩ := Path.route_eq_ok hr
      dsimp only
      rw [hsteps, walkFrom_kept_one fs _ _ _ left maxLinks]
  · intro last
    obtain ⟨left, hle, hw⟩ := walk_join_within hb hx hlen last
    rw [hw, walkWithin, walk]
    cases hr : (Path.mk x).route with
    | error e => exact .inl rfl
    | ok route =>
      obtain ⟨-, rfl⟩ := Path.route_eq_ok hr
      dsimp only
      rw [hsteps, hslash, Path.fromRoot_of_relative hx]
      simp only [Bool.false_eq_true, if_false]
      cases hm : fs.stretch last false D [Step.ofPiece x] with
      | ends place => exact .inl (by rw [walkFrom_of_ends hm, walkFrom_of_ends hm])
      | fails e => exact .inl (by rw [walkFrom_of_fails hm, walkFrom_of_fails hm])
      | meets d target rest =>
        rcases walkFrom_of_more_links fs last false D [Step.ofPiece x] hle with hmany | hsame
        · obtain ⟨n, hname, hlink⟩ := link_of_meets_one hm
          rw [← Step.eq_of_ofPiece_eq_name hname] at hlink
          rw [hmany]
          exact .inr ⟨rfl, target, hlink⟩
        · exact .inl (by rw [hsame])

namespace SameEntry

variable (h : fs.SameEntry here p D x)
include h

theorem names_iff {spot : Location} : fs.Names here p spot ↔ fs.Names D ⟨x⟩ spot := by
  unfold Names
  rw [h.kept]

theorem remove : fs.remove here p = fs.remove D ⟨x⟩ := by
  unfold FileSystem.remove
  rw [h.kept]

theorem read : fs.read here p = fs.read D ⟨x⟩ ∨
    fs.read here p = .error (.code .tooManyLinks) ∧
      ∃ target, fs.node? (x :: D) = some (.link target) := by
  unfold FileSystem.read stat find
  rcases h.followed .followed with hw | ⟨hw, hlink⟩
  · rw [hw]
    exact .inl rfl
  · rw [hw]
    exact .inr ⟨rfl, hlink⟩

end SameEntry

theorem not_names_of_long {spot : Location} (h : Route.maxLength ≤ p.bytes.length) :
    ¬ fs.Names here p spot := by
  rintro ⟨d, m, s, hw, -⟩
  obtain ⟨route, hr, -⟩ := walk_eq_ok_iff.1 hw
  rw [Path.route, if_pos h] at hr
  repeat' split at hr
  all_goals cases hr

theorem Behind.of_write {there : Location} {content : Bytes} (hb : fs.Behind here dir D)
    (h : fs.write there p content = .ok fs') : fs'.Behind here dir D := by
  rcases hb with hb | hd
  · exact .inl hb
  obtain ⟨place, hw, rfl, hdir⟩ := directoryAt_eq_ok_iff.1 hd
  obtain ⟨loc, m, executable, -, -, hwas, hnow, hothers⟩ := write_spec h
  have hfilled := filled_of_file hwas hnow hothers
  refine .inr (directoryAt_eq_ok_iff.2 ⟨place, (walk_of_filled hfilled hw).1, rfl, ?_⟩)
  obtain ⟨fixed, hx⟩ := hdir
  refine ⟨fixed, ?_⟩
  rw [hothers _ fun he => ?_, hx]
  rw [← he, hx] at hwas
  simp at hwas

end FileSystem

/-! ## In front of a name -/

namespace Path

variable {dir : Path} {lead : Bytes} {fs : FileSystem} {here D : Location}

theorem Front.behind (h : Front lead dir) (hb : fs.Behind here dir D)
    (hlen : lead.length < Route.maxLength) : fs.Behind here ⟨lead⟩ D := by
  by_cases hl : lead = []
  · rw [h.dir_of_nil hl] at hb
    rwa [hl]
  -- The parent of any entry shows the steps in front of it: those of the directory, and then some
  -- that stay where they are.
  have ha : IsPiece [0x61] := by decide
  obtain ⟨dir', hparent, hdne, -, hroot, heres, hall, hsteps⟩ :=
    Path.parent?_join (p := ⟨lead⟩) hl ha
  rw [h.join_lead ha.isRelative, (h.entry ha).1] at hparent
  obtain rfl : dir = dir' := Option.some.inj hparent
  rcases hb with ⟨hempty, -⟩ | hd
  · exact absurd hempty hdne
  obtain ⟨place, hw, rfl, hdir⟩ := directoryAt_eq_ok_iff.1 hd
  obtain ⟨_, hr, harrives⟩ := walk_eq_ok_iff.1 hw
  obtain ⟨-, rfl⟩ := route_eq_ok hr
  have hnul : (0 : UInt8) ∉ lead := by
    intro h0
    rcases h.bytes 0 h0 with hb | hb | hb
    · exact not_mem_of_route hr hb
    · cases hb
    · cases hb
  have hroute : (Path.mk lead).route = .ok (.ofBytes lead) := by
    rw [route, if_neg hnul, if_neg hl, if_neg (Nat.not_le.2 hlen)]
  obtain ⟨place', harrives', hloc⟩ : ∃ place', fs.Arrives .followed place' maxLinks
      (Route.ofBytes lead).slash (if (Route.ofBytes lead).fromRoot then [] else here)
      (Route.ofBytes lead).steps ∧ place'.location = place.location := by
    rw [hsteps, ← hroot]
    by_cases hnone : heres = []
    · rw [hnone, List.append_nil]
      exact arrives_of_slash harrives _
    · exact ⟨_, arrives_append hnone harrives hdir (stretch_heres fs hall _ _ _), rfl⟩
  exact .inr (directoryAt_eq_ok_iff.2
    ⟨place', walk_eq_ok_iff.2 ⟨_, hroute, harrives'⟩, hloc, hloc ▸ hdir⟩)

end Path

/-! ## The source and the artifact -/

namespace Settings

variable {s : Settings} {source dir : Path} {n : Bytes} {fs : FileSystem} {here D : Location}

theorem no_slash_compiledName (hs : slash ∉ s.compiledExt) (hn : slash ∉ n) :
    slash ∉ s.compiledName n := by
  cases hcut : splitAtLast dot n with
  | none =>
    rw [compiledName_of_undotted (splitAtLast_eq_none_iff.1 hcut)]
    simp only [List.mem_append, List.mem_cons, not_or]
    exact ⟨hn, by decide, hs⟩
  | some cut =>
    obtain ⟨rfl, hd⟩ := splitAtLast_eq_some hcut
    rw [compiledName_of_dotted hd]
    simp only [List.mem_append, List.mem_cons, not_or] at hn ⊢
    exact ⟨hn.1, by decide, hs⟩

theorem directoryOf_invocation (hn : source.parent? = some dir) (hb : fs.Behind here dir D) :
    Machine.directoryOf here (s.invocation source) fs = .ok D := by
  unfold Machine.directoryOf invocation
  rw [hn]
  rcases hb with ⟨hempty, rfl⟩ | hd
  · simp [Option.filter, hempty]
  · have hne : dir.bytes ≠ [] := by
      intro he
      simp [directoryAt, find, walk, Path.route, he] at hd
    simp [Option.filter, hne, hd]

theorem exists_artifactPath_behind (hne : s.compiledExt ≠ []) (hs : slash ∉ s.compiledExt)
    (hn : source.fileName? = some n) (ht : Utf8.isText n = true) (hd : source.parent? = some dir)
    (hb : fs.Behind here dir D) :
    ∃ front : Path, s.artifactPath source = .ok (front.join (s.compiledName n)) ∧
      (front.bytes.length < Route.maxLength → fs.Behind here front D) := by
  obtain ⟨dir', -, hparent, hf, -, -⟩ := Path.exists_front hn
  obtain rfl : dir = dir' := Option.some.inj (hd.symm.trans hparent)
  by_cases hcut : splitAtLast dot n = none
  · have ha := artifactPath_of_undotted hne hs hn (splitAtLast_eq_none_iff.1 hcut)
    have hx : IsRelative (s.compiledName n) :=
      isRelative_of_no_slash (by simp [compiledName])
        (no_slash_compiledName hs (Path.isPiece_of_fileName? hn).no_slash)
    rw [← hf.join_lead hx] at ha
    exact ⟨_, ha, hf.behind hb⟩
  · exact ⟨dir, artifactPath_of_text hn ht hd hcut, fun _ => hb⟩

/-- The child runs in the directory of the source, where the name that it gets is the entry that the
source is, and the name with the compiled extension is the entry that the installer has for the
artifact. What the child writes there is what the installer reads and removes. -/
theorem invocation_designates (hne : s.compiledExt ≠ []) (hs : slash ∉ s.compiledExt)
    (hn : source.fileName? = some n) (ht : Utf8.isText n = true) (hd : source.parent? = some dir)
    (hb : fs.Behind here dir D) :
    Machine.directoryOf here (s.invocation source) fs = .ok D ∧
    (s.invocation source).args.head? = some n ∧
    (¬ [slash] <:+ source.bytes → ¬ [slash, dot] <:+ source.bytes →
      source.bytes.length < Route.maxLength → fs.SameEntry here source D n) ∧
    ∃ a, s.artifactPath source = .ok a ∧ (a.bytes.length < Route.maxLength →
      fs.SameEntry here a D (s.compiledName n) ∧
      ∀ content fs', fs.write D ⟨s.compiledName n⟩ content = .ok fs' →
        fs'.SameEntry here a D (s.compiledName n) ∧ (fs'.read here a = .ok content ∨
          fs'.read here a = .error (.code .tooManyLinks) ∧
            ∃ target, fs'.node? (s.compiledName n :: D) = some (.link target))) := by
  have hpiece := Path.isPiece_of_fileName? hn
  refine ⟨directoryOf_invocation hd hb, by simp [invocation, hn], fun hslash hdot hlen => ?_, ?_⟩
  · obtain ⟨dir', tail, hparent, hf, hidle, hbytes⟩ := Path.exists_front hn
    obtain rfl : dir = dir' := Option.some.inj (hd.symm.trans hparent)
    rw [hbytes] at hslash hdot
    have htail : tail = [] := hidle.eq_nil (fun h => hslash (h.trans (List.suffix_append _ _)))
      fun h => hdot (h.trans (List.suffix_append _ _))
    rw [htail, List.append_nil] at hbytes
    have hsource : source = (Path.mk source.lead).join n := by
      rw [hf.join_lead hpiece.isRelative, ← hbytes]
    have hshort : source.lead.length < Route.maxLength := by
      rw [hbytes, List.length_append] at hlen
      omega
    have hsame := sameEntry_of_behind (hf.behind hb hshort) hpiece.ne_nil hpiece.no_slash
      (by rwa [← hsource])
    rwa [← hsource] at hsame
  · obtain ⟨front, ha, hfront⟩ := exists_artifactPath_behind hne hs hn ht hd hb
    have hcne : s.compiledName n ≠ [] := by simp [compiledName]
    have hcs := no_slash_compiledName hs hpiece.no_slash
    refine ⟨_, ha, fun hlen => ?_⟩
    have hb' := hfront (by
      have := Path.le_length_join (p := front) (isRelative_of_no_slash hcne hcs)
      omega)
    refine ⟨sameEntry_of_behind hb' hcne hcs hlen, fun content fs' hw => ?_⟩
    have hsame := sameEntry_of_behind (hb'.of_write hw) hcne hcs hlen
    refine ⟨hsame, ?_⟩
    rw [← read_of_write hw]
    exact hsame.read

theorem invocation_designates_hidden :
    let s := Sample.settings
    let fs := Sample.barred.files
    let source := Sample.path "home/jil//lib/./.java"
    let D : Location := [Utf8.encode "lib", Utf8.encode "real"]
    Machine.directoryOf [] (s.invocation source) fs = .ok D ∧
      (s.invocation source).args.head? = some (Utf8.encode ".java") ∧
      fs.Names [] source (Utf8.encode ".java" :: D) ∧
      ∃ a, s.artifactPath source = .ok a ∧ fs.Names [] a (Utf8.encode ".class" :: D) ∧
        ∃ fs', fs.write D ⟨Utf8.encode ".class"⟩ [0x2A] = .ok fs' ∧ fs'.read [] a = .ok [0x2A] := by
  intro s fs source D
  have hb : fs.Behind [] (Sample.path "home/jil//lib") D :=
    .inr (Sample.eq_ok_of_toOption (by decide +kernel))
  obtain ⟨hdir, hargs, hsource, a, ha, hartifact⟩ :=
    invocation_designates (s := s) (by decide) (by decide)
      (show source.fileName? = some (Utf8.encode ".java") by decide +kernel) (by decide +kernel)
      (by decide +kernel) hb
  have ha' : s.artifactPath source = .ok (Sample.path "home/jil//lib/.class") :=
    Sample.eq_ok_of_toOption (by decide +kernel)
  obtain rfl : a = Sample.path "home/jil//lib/.class" := Except.ok.inj (ha.symm.trans ha')
  obtain ⟨hentry, hwrite⟩ := hartifact (by decide)
  refine ⟨hdir, hargs, ?_, _, ha, ?_, ?_⟩
  · rw [(hsource (by decide) (by decide) (by decide)).names_iff]
    exact ⟨D, _, false, Sample.eq_ok_of_toOption (by decide +kernel), rfl⟩
  · rw [hentry.names_iff]
    exact ⟨D, _, false, Sample.eq_ok_of_toOption (by decide +kernel), rfl⟩
  · have hfile : (fs.write D ⟨Utf8.encode ".class"⟩ [0x2A]).toOption.map
        (·.node? (Utf8.encode ".class" :: D)) = some (some (.file [0x2A] false)) := by
      decide +kernel
    obtain ⟨fs', hw, hx⟩ := Option.map_eq_some_iff.1 hfile
    have hw := Sample.eq_ok_of_toOption hw
    refine ⟨fs', hw, ?_⟩
    rcases (hwrite _ _ hw).2 with hread | ⟨-, target, hlink⟩
    · exact hread
    · rw [show s.compiledName (Utf8.encode ".java") = Utf8.encode ".class" by decide, hx] at hlink
      cases hlink

/-- The path of an artifact can be too long when that of its source is not. The compiled name in the
directory of the source is an entry then, and the path leads nowhere. -/
theorem artifactPath_out_of_reach :
    let s := Sample.starter.settings
    let fs := Sample.rooted.files
    let source := Installer.nearMaxLength.join (Utf8.encode "A.java")
    let D : Location := [Utf8.encode "ww"]
    source.fileName? = some (Utf8.encode "A.java") ∧ source.parent? = some Installer.nearMaxLength ∧
      fs.Behind [] Installer.nearMaxLength D ∧
      s.compiledName (Utf8.encode "A.java") = Utf8.encode "A.class" ∧
      fs.Names D ⟨Utf8.encode "A.class"⟩ (Utf8.encode "A.class" :: D) ∧
      ∃ a, s.artifactPath source = .ok a ∧ ∀ spot, ¬ fs.Names [] a spot := by
  intro s fs source D
  obtain ⟨a, ha, hlong⟩ := Installer.artifactPath_nearMaxLength
  refine ⟨Path.fileName?_join _ (by decide), Installer.parent?_nearMaxLength,
    .inr Installer.directoryAt_nearMaxLength, by decide, ?_, a, ha, fun spot => not_names_of_long hlong⟩
  exact ⟨D, _, false, Sample.eq_ok_of_toOption (by decide +kernel), rfl⟩

end Settings

end ModuleInstall
