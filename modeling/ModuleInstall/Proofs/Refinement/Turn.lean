import ModuleInstall.Proofs.Refinement.Maps
import ModuleInstall.Proofs.Turns

/-! # One turn on two maps -/

namespace ModuleInstall

open FileSystem

namespace Installer

open ModuleInstall.Action TwoMaps

/-- The compiler leaves a plain file system as it is, or it writes the artifact of the source and
nothing else. -/
def Obedient (i : Installer) : Prop :=
  ∀ fs source, fs.Plain → i.settings.kindOf source = .source →
    (∃ e, (i.compiler fs source).result = .error e ∧
      ∀ l, (i.compiler fs source).files.node? l = fs.node? l) ∨
    ∃ artifact dir n content, (i.compiler fs source).result = .ok artifact ∧
      i.settings.artifactPath source = .ok artifact.path ∧
      fs.walk .followed i.here artifact.path = .ok (.entry dir n false) ∧
      Put (n :: dir) content fs (i.compiler fs source).files

/-- The paths at the turn of a name are short enough, that of the file and that of its module. -/
structure Admissible (i : Installer) (dir : Path) (n : Name) : Prop where
  listed : (dir.join n).bytes.length < Route.maxLength
  installed : i.settings.kindOf (dir.join n) ≠ .ignored →
    (i.settings.tree.modulePath (i.settings.moduleName dir n)).bytes.length < Route.maxLength

/-- What a run on two maps asks of an installation. -/
structure Ground (i : Installer) (dir : Path) (fs₀ : FileSystem) (D S : Location) : Prop where
  plain : fs₀.Plain
  dirAt : fs₀.directoryAt i.here dir = .ok D
  stdAt : fs₀.directoryAt i.here i.settings.tree.std = .ok S
  apart : D ≠ S
  admissible : ∀ n, (fs₀.content? (n :: D)).isSome → i.Admissible dir n
  tellsApart : i.settings.TellsApart
  obedient : i.Obedient
  roomy : i.room = .ample

/-- The answer is that of the compiler at the turn of a name. -/
def Answers (i : Installer) (dir : Path) (D : Location) (fs : FileSystem) (n : Name) :
    Answer → Prop
  | .refuses e => (i.compiler fs (dir.join n)).result = .error e ∧
      ∀ l, (i.compiler fs (dir.join n)).files.node? l = fs.node? l
  | .makes notes content => (i.compiler fs (dir.join n)).result =
        .ok { path := (dir.join n).withFileName (i.settings.artifactName n), notes } ∧
      fs.Leads i.here ((dir.join n).withFileName (i.settings.artifactName n)) D
        (i.settings.artifactName n) ∧
      Put (i.settings.artifactName n :: D) content fs (i.compiler fs (dir.join n)).files

variable {i : Installer} {dir : Path} {fs₀ fs : FileSystem} {D S : Location} {n : Name}
  {t : Session} {total number : Nat} {answer : Name → Answer}

theorem admissible_of_short (hn : n.Proper)
    (hdir : dir.bytes.length + Name.maxLength + 1 < Route.maxLength)
    (hstd : i.settings.tree.std.bytes.length + Name.maxLength + i.settings.compiledExt.length + 1 <
      Route.maxLength) : i.Admissible dir n := by
  have hname : n.length ≤ Name.maxLength := hn.2.2.2.2.2
  have hmodule := Settings.length_moduleName_le (s := i.settings) (p := dir) hn.isPiece
  constructor
  · have := Path.length_join_le dir n
    omega
  · intro _
    have : (i.settings.tree.modulePath (i.settings.moduleName dir n)).bytes.length ≤
        i.settings.tree.std.bytes.length + 1 + (i.settings.moduleName dir n).length :=
      Path.length_join_le i.settings.tree.std (i.settings.moduleName dir n)
    omega

namespace Ground

variable (g : Ground i dir fs₀ D S)
include g

theorem leads_listed (hk : Kept D S fs₀ fs) (hn : n.Proper)
    (hlen : (dir.join n).bytes.length < Route.maxLength) : fs.Leads i.here (dir.join n) D n :=
  (hk.same g.plain).leads (leads_join g.plain.linkless g.dirAt hn hlen)

theorem leads_module (hk : Kept D S fs₀ fs) (hn : n.Proper)
    (hlen : (i.settings.tree.modulePath n).bytes.length < Route.maxLength) :
    fs.Leads i.here (i.settings.tree.modulePath n) S n :=
  (hk.same g.plain).leads (leads_join g.plain.linkless g.stdAt hn hlen)

theorem isDirectory_std (hk : Kept D S fs₀ fs) : fs.IsDirectory S := by
  obtain ⟨place, -, rfl, hd⟩ := directoryAt_eq_ok_iff.1 g.stdAt
  exact (hk.directories _).2 hd

theorem taken_eq (fs : FileSystem) (p : Path) (content : Bytes) :
    fs.taken i.room i.here p content = content := by
  rw [g.roomy, taken_ample]

theorem write_module (hk : Kept D S fs₀ fs) (hn : n.Proper)
    (hlen : (i.settings.tree.modulePath n).bytes.length < Route.maxLength) (content : Bytes) :
    if blockedIn fs₀ S n then
      fs.write i.here (i.settings.tree.modulePath n) content = .error (.code .isDirectory)
    else
      ∃ fs', fs.write i.here (i.settings.tree.modulePath n) content = .ok fs' ∧
        Put (n :: S) content fs fs' := by
  have hl := g.leads_module hk hn hlen
  split
  · rename_i hb
    exact write_of_leads_directory hl ((hk.directories _).2 (blockedIn_iff.1 hb))
  · rename_i hb
    refine write_of_leads hk.plain hl (g.isDirectory_std hk) hn ?_
    rw [hk.directories, ← blockedIn_iff]
    exact hb

theorem exists_answer (hk : Kept D S fs₀ fs) (hn : n.Proper)
    (hs : i.settings.kindOf (dir.join n) = .source) : ∃ a, i.Answers dir D fs n a := by
  rcases g.obedient fs (dir.join n) hk.plain hs with
    ⟨e, hr, hsame⟩ | ⟨artifact, d, m, content, hr, hp, hw, hput⟩
  · exact ⟨.refuses e, hr, hsame⟩
  · have ha := Settings.isPiece_artifactName g.tellsApart hn.isPiece hs
    obtain ⟨stem, ext, -, -, -, hpath⟩ := Settings.exists_stem_of_source hn.isPiece hs
    obtain ⟨path, notes⟩ := artifact
    obtain rfl : (dir.join n).withFileName (i.settings.artifactName n) = path :=
      Except.ok.inj (hpath.symm.trans hp)
    have hw₀ := (hk.same g.plain).symm.walk hw
    have hl := (hk.same g.plain).leads
      (leads_withFileName g.plain.linkless g.dirAt hn.isPiece ha hw₀)
    have hsame := hl .followed
    rw [hw] at hsame
    cases hsame
    exact ⟨.makes notes content, hr, hl, hput⟩

theorem moveArtifact_refines (artifact : Artifact) (hk : Kept D S fs₀ t.files) {a : Name}
    {content : Bytes} (ha : a.Proper)
    (hlen : (i.settings.tree.modulePath a).bytes.length < Route.maxLength)
    (hf : artifact.path.fileName? = some a)
    (hl : t.files.Leads i.here artifact.path D a) (hc : t.files.content? (a :: D) = some content) :
    if blockedIn fs₀ S a then
      ∃ t', i.moveArtifact artifact t = .error (inTheWay i.settings a) t' ∧ t'.files = t.files
    else
      ∃ t', i.moveArtifact artifact t = .ok (i.settings.tree.modulePath a) t' ∧
        Kept D S fs₀ t'.files ∧
        of t'.files D S =
          { work := Function.update (of t.files D S).work a none
            std := Function.update (of t.files D S).std a (some content) } := by
  have hread := read_of_leads hl hc
  have hwrite := g.write_module hk ha hlen content
  rw [run_moveArtifact]
  split
  · rename_i hb
    rw [if_pos hb] at hwrite
    rw [copyModule_of_write_error hf hread hwrite]
    exact ⟨_, rfl, rfl⟩
  · rename_i hb
    rw [if_neg hb] at hwrite
    obtain ⟨fs', hwrite, hput⟩ := hwrite
    have hk' := hk.put (Or.inr rfl) hput
    have hl' : fs'.Leads i.here artifact.path D a := (hput.same hk.plain).leads hl
    have hc' : fs'.content? (a :: D) = some content := by
      rw [hput.content?_other (by simp [g.apart]), hc]
    obtain ⟨fs'', hrm, hlost⟩ := remove_of_leads hk'.plain hl' hc'
    rw [copyModule_of_write hf hread (g.taken_eq ..) hwrite]
    simp only [hrm]
    refine ⟨_, rfl, hk'.lost hlost, ?_⟩
    rw [of_change_work g.apart (Lost.content?_self hlost) fun l hne => Lost.content?_other hlost hne,
      of_change_std g.apart hput.content?_self fun l hne => hput.content?_other hne]

theorem handle_precompiled_refines (hk : Kept D S fs₀ t.files) (hn : n.Proper)
    (hadm : i.Admissible dir n) (hkind : i.settings.kindOf (dir.join n) = .precompiled)
    {content : Bytes} (hc : (of t.files D S).work n = some content) :
    if blockedIn fs₀ S n then
      ∃ t', i.handle (dir.join n) .precompiled t = .error (inTheWay i.settings n) t' ∧
        t'.files = t.files
    else
      ∃ t', i.handle (dir.join n) .precompiled t =
          .ok (some (.copied (i.settings.tree.modulePath n))) t' ∧
        Kept D S fs₀ t'.files ∧
        of t'.files D S = { of t.files D S with
          std := Function.update (of t.files D S).std n (some content) } := by
  have hread := read_of_leads (g.leads_listed hk hn hadm.listed) hc
  have hf := Path.fileName?_join dir hn.isPiece
  have hlen := hadm.installed (by simp [hkind])
  rw [Settings.moduleName, if_neg (by simp [hkind])] at hlen
  have hwrite := g.write_module hk hn hlen content
  rw [handle_precompiled]
  split
  · rename_i hb
    rw [if_pos hb] at hwrite
    rw [copyModule_of_write_error hf hread hwrite]
    exact ⟨_, rfl, rfl⟩
  · rename_i hb
    rw [if_neg hb] at hwrite
    obtain ⟨fs', hwrite, hput⟩ := hwrite
    rw [copyModule_of_write hf hread (g.taken_eq ..) hwrite]
    refine ⟨_, rfl, hk.put (Or.inr rfl) hput, ?_⟩
    exact of_change_std g.apart hput.content?_self fun l hne => hput.content?_other hne

theorem handle_source_refines (hk : Kept D S fs₀ t.files) (hn : n.Proper)
    (hadm : i.Admissible dir n) (hkind : i.settings.kindOf (dir.join n) = .source)
    {notes : List String} {content : Bytes}
    (ha : i.Answers dir D t.files n (.makes notes content)) :
    if blockedIn fs₀ S (i.settings.artifactName n) then
      ∃ t', i.handle (dir.join n) .source t =
          .ok (some (.failed (inTheWay i.settings (i.settings.artifactName n)))) t' ∧
        Kept D S fs₀ t'.files ∧
        of t'.files D S = { of t.files D S with
          work := Function.update (of t.files D S).work (i.settings.artifactName n) (some content) }
    else
      ∃ t', i.handle (dir.join n) .source t = .ok (some (.installed
          { path := (dir.join n).withFileName (i.settings.artifactName n), notes }
          (i.settings.tree.modulePath (i.settings.artifactName n)))) t' ∧
        Kept D S fs₀ t'.files ∧
        of t'.files D S =
          { work := Function.update (of t.files D S).work (i.settings.artifactName n) none
            std := Function.update (of t.files D S).std (i.settings.artifactName n)
              (some content) } := by
  obtain ⟨hr, hl, hput⟩ := ha
  have hpiece := Settings.isPiece_artifactName g.tellsApart hn.isPiece hkind
  have hk' : Kept D S fs₀ (i.afterCompiling (dir.join n) t).files := hk.put (Or.inl rfl) hput
  have hproper : (i.settings.artifactName n).Proper := by
    obtain ⟨x, hx⟩ := hput.now
    exact proper_of_node? hx
  have hl' := (hput.same hk.plain).leads hl
  have hof : of (i.afterCompiling (dir.join n) t).files D S = { of t.files D S with
      work := Function.update (of t.files D S).work (i.settings.artifactName n) (some content) } :=
    of_change_work g.apart hput.content?_self fun l hne => hput.content?_other hne
  have hlen := hadm.installed (by simp [hkind])
  rw [Settings.moduleName, if_pos hkind] at hlen
  have hmove := g.moveArtifact_refines
    { path := (dir.join n).withFileName (i.settings.artifactName n), notes } hk' hproper hlen
    (Path.fileName?_withFileName (dir.join n) hpiece) hl' hput.content?_self
  rw [handle_source, run_compileAndMove, hr]
  dsimp only
  by_cases hb : blockedIn fs₀ S (i.settings.artifactName n) = true
  · rw [if_pos hb] at hmove ⊢
    obtain ⟨t', hm, hfiles⟩ := hmove
    rw [hm]
    exact ⟨t', rfl, hfiles ▸ hk', by rw [hfiles, hof]⟩
  · rw [if_neg hb] at hmove ⊢
    obtain ⟨t', hm, hkept, hafter⟩ := hmove
    rw [hm]
    refine ⟨t', rfl, hkept, ?_⟩
    rw [hafter, hof]
    simp only [Function.update_idem]

/-- What a turn does to the files is what it does to the two maps. -/
theorem handle_refines (hk : Kept D S fs₀ t.files) (hn : n.Proper) (hadm : i.Admissible dir n)
    (hwork : i.settings.kindOf (dir.join n) ≠ .ignored →
      ∃ content, (of t.files D S).work n = some content)
    (hans : i.settings.kindOf (dir.join n) = .source → i.Answers dir D t.files n (answer n)) :
    match TwoMaps.handle i.settings dir (blockedIn fs₀ S) answer n (of t.files D S) with
    | .error e => ∃ t', i.handle (dir.join n) (i.settings.kindOf (dir.join n)) t = .error e t' ∧
        Kept D S fs₀ t'.files ∧ of t'.files D S = of t.files D S
    | .ok (outcome, m) =>
      ∃ t', i.handle (dir.join n) (i.settings.kindOf (dir.join n)) t = .ok outcome t' ∧
        Kept D S fs₀ t'.files ∧ of t'.files D S = m := by
  unfold TwoMaps.handle
  cases hkind : i.settings.kindOf (dir.join n) with
  | ignored => exact ⟨t, rfl, hk, rfl⟩
  | precompiled =>
    obtain ⟨content, hc⟩ := hwork (by simp [hkind])
    have h := g.handle_precompiled_refines hk hn hadm hkind hc
    dsimp only
    by_cases hb : blockedIn fs₀ S n = true
    · rw [if_pos hb] at h ⊢
      obtain ⟨t', hh, hfiles⟩ := h
      exact ⟨t', hh, hfiles ▸ hk, by rw [hfiles]⟩
    · rw [if_neg hb] at h ⊢
      rw [hc]
      exact h
  | source =>
    have ha := hans hkind
    dsimp only
    cases hanswer : answer n with
    | refuses e =>
      rw [hanswer] at ha
      obtain ⟨hr, hsame⟩ := ha
      rw [handle_source, run_compileAndMove, hr]
      exact ⟨_, rfl, hk.congr hsame, of_congr hsame⟩
    | makes notes content =>
      rw [hanswer] at ha
      have h := g.handle_source_refines hk hn hadm hkind ha
      dsimp only
      by_cases hb : blockedIn fs₀ S (i.settings.artifactName n) = true
      · rw [if_pos hb] at h ⊢
        exact h
      · rw [if_neg hb] at h ⊢
        exact h

theorem handleListed_refines (answer : Name → Answer) (total number : Nat)
    (hk : Kept D S fs₀ t.files) (hn : n.Proper) (hadm : i.Admissible dir n)
    (hwork : i.settings.kindOf (dir.join n) ≠ .ignored →
      ∃ content, (of t.files D S).work n = some content)
    (hans : i.settings.kindOf (dir.join n) = .source → i.Answers dir D t.files n (answer n)) :
    match TwoMaps.handle i.settings dir (blockedIn fs₀ S) answer n (of t.files D S) with
    | .error e => ∃ t', i.handleListed total (dir.join n) number t = .error e t' ∧
        Kept D S fs₀ t'.files ∧ of t'.files D S = of t.files D S
    | .ok (outcome, m) => ∃ t', i.handleListed total (dir.join n) number t =
          .ok (outcome.map fun o => (Utf8.toText n, o)) t' ∧
        Kept D S fs₀ t'.files ∧ of t'.files D S = m := by
  have hname : listedName (dir.join n) = Utf8.toText n := by
    simp [listedName, Path.fileName?_join dir hn.isPiece]
  rw [run_handleListed, hname]
  rw [← files_announcing i total (dir.join n) number t] at hk hwork hans ⊢
  have h := g.handle_refines hk hn hadm hwork hans
  split at h
  · obtain ⟨t', hh, hkept, hof⟩ := h
    rw [hh]
    exact ⟨t', rfl, hkept, hof⟩
  · rename_i outcome m _
    obtain ⟨t', hh, hkept, hof⟩ := h
    rw [hh]
    cases outcome with
    | none => exact ⟨t', rfl, hkept, hof⟩
    | some o => exact ⟨showing o t', rfl, by rwa [files_showing], by rwa [files_showing]⟩

end Ground

end Installer

end ModuleInstall
