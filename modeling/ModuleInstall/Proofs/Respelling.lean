import Mathlib.Data.List.Forall2
import ModuleInstall.Proofs.Crossing
import ModuleInstall.Proofs.Levels
import ModuleInstall.Proofs.Sorting
import ModuleInstall.Proofs.RespelledTurn

/-! # Another spelling -/

namespace ModuleInstall.Installer

open FileSystem ModuleInstall.Action

variable {i : Installer} {m : Machine} {fs₀ : FileSystem} {dir dir₁ dir₂ path : Path} {D : Location}
  {total number : Nat} {items items' rest : List (Path × Nat)} {x : Path × Nat}
  {entries : List (String × Outcome)} {s s' t : Session} {e : InstallError}

/-! ## Passing over the ignored -/

theorem reaches_modulesAmong (h : i.Reaches total items s entries rest t) :
    i.Reaches total (i.modulesAmong items) s entries (i.modulesAmong rest) t := by
  induction h with
  | start => exact .start
  | @turn entries path number rest entry t t' _ hl ih =>
    by_cases hk : i.settings.kindOf path = .ignored
    · rw [handleListed_ignored total number t hk] at hl
      cases hl
      rw [modulesAmong_cons_of_ignored hk] at ih
      simpa using ih
    · rw [modulesAmong_cons hk] at ih
      exact .turn ih hl

theorem handleAll_modulesAmong (i : Installer) (total : Nat) (items : List (Path × Nat))
    (s : Session) : i.handleAll total (i.modulesAmong items) s = i.handleAll total items s := by
  induction items generalizing s with
  | nil => rfl
  | cons item items ih =>
    obtain ⟨path, number⟩ := item
    by_cases hk : i.settings.kindOf path = .ignored
    · rw [modulesAmong_cons_of_ignored hk, ih,
        handleAll_cons_of_ok (handleListed_ignored total number s hk)]
      cases i.handleAll total items s <;> rfl
    · rw [modulesAmong_cons hk]
      cases hl : i.handleListed total path number s with
      | ok entry t => rw [handleAll_cons_of_ok hl, handleAll_cons_of_ok hl, ih]
      | error e t => rw [handleAll_cons_of_error hl, handleAll_cons_of_error hl]

theorem exists_reaches_of_modulesAmong
    (h : i.Reaches total (i.modulesAmong items) s entries (x :: rest) t) :
    ∃ entries' rest', i.Reaches total items s entries' (x :: rest') t := by
  induction items generalizing s entries with
  | nil => exact absurd (suffix_of_reaches h).length_le (by simp [modulesAmong])
  | cons item items ih =>
    obtain ⟨path, number⟩ := item
    by_cases hk : i.settings.kindOf path = .ignored
    · rw [modulesAmong_cons_of_ignored hk] at h
      obtain ⟨entries', rest', hr⟩ := ih h
      exact ⟨_, _, reaches_append (.turn .start (handleListed_ignored total number s hk)) hr⟩
    · rw [modulesAmong_cons hk] at h
      rcases reaches_cons h with ⟨heq, rfl⟩ | ⟨entry, s₁, more, hl, hr⟩
      · cases heq
        exact ⟨[], items, .start⟩
      · obtain ⟨entries', rest', hr'⟩ := ih hr
        exact ⟨_, _, reaches_append (.turn .start hl) hr'⟩

/-! ## The run -/

/-- The items are those of one module, in two spellings. -/
def Paired (i : Installer) (dir₁ dir₂ : Path) (x y : Path × Nat) : Prop :=
  ∃ n, IsPiece n ∧ i.settings.kindOf (dir₁.join n) ≠ .ignored ∧ i.settings.SameLimits dir₁ dir₂ n ∧
    x.1 = dir₁.join n ∧ y.1 = dir₂.join n

namespace Spelled

variable (g : Spelled i m fs₀ dir₁ dir₂ D)
include g

/-- What one run reaches, the other one reaches. -/
theorem exists_reaches (h : i.Reaches total items s entries rest t) (hs : Beside fs₀ s s')
    (hitems : List.Forall₂ (i.Paired dir₁ dir₂) items items') (total' : Nat) :
    ∃ entries' rest' t', i.Reaches total' items' s' entries' rest' t' ∧
      List.Forall₂ LikeEntry entries entries' ∧
      List.Forall₂ (i.Paired dir₁ dir₂) rest rest' ∧ Beside fs₀ t t' := by
  induction h with
  | start => exact ⟨[], items', s', .start, .nil, hitems, hs⟩
  | @turn entries path number rest entry t t₁ _ hl ih =>
    obtain ⟨entries', _, t', hr, hentries, hrest, ht⟩ := ih
    obtain _ | ⟨⟨n, hn, hk, hlimits, hp, hq⟩, hrest⟩ := hrest
    rename_i y rest'
    obtain ⟨path', number'⟩ := y
    obtain rfl : path = dir₁.join n := hp
    obtain rfl : path' = dir₂.join n := hq
    have hturn := g.parallel_handleListed hn ht hk hlimits total number total' number'
    rw [hl] at hturn
    cases hl' : i.handleListed total' (dir₂.join n) number' t' with
    | error e t₁' =>
      rw [hl'] at hturn
      exact hturn.elim
    | ok entry' t₁' =>
      rw [hl'] at hturn
      obtain ⟨⟨a, b, rfl, rfl, hab⟩, ht₁⟩ := hturn
      exact ⟨_, rest', t₁', .turn hr hl', List.rel_append hentries (.cons hab .nil), hrest, ht₁⟩

end Spelled

/-! ## Two listings -/

namespace Respells

variable {fs : FileSystem} (g : i.Respells fs dir₁ dir₂ D)
include g

theorem isFile_eq (hs : fs.Linkless) {n : Name} (hn : IsPiece n)
    (hk : i.settings.kindOf (dir₁.join n) ≠ .ignored) :
    fs.isFile i.here (dir₁.join n) = fs.isFile i.here (dir₂.join n) := by
  have hsame : ∀ c, fs.content? (n :: D) = some c →
      fs.isFile i.here (dir₁.join n) = fs.isFile i.here (dir₂.join n) := fun c hc =>
    (sameWay_join hs g.left g.right hn.isRelative (g.limits n c hc hk).listed).isFile
  rw [Bool.eq_iff_iff]
  constructor
  · intro h
    obtain ⟨c, -, hc⟩ := exists_content_of_isFile hs g.left hn h
    rwa [← hsame c hc]
  · intro h
    obtain ⟨c, -, hc⟩ := exists_content_of_isFile hs g.right hn h
    rwa [hsame c hc]

theorem modules_eq (hs : fs.Linkless) : i.modules dir₁ fs D = i.modules dir₂ fs D := by
  refine List.filter_congr fun n hn => ?_
  obtain ⟨node, hx⟩ := mem_names_iff.1 ((List.mergeSort_perm _ _).mem_iff.1 hn)
  have hpiece := (proper_of_node? hx).isPiece
  rw [i.settings.kindOf_join_eq dir₂ dir₁ hpiece]
  by_cases hk : i.settings.kindOf (dir₁.join n) = .ignored
  · simp [hk]
  · rw [g.isFile_eq hs hpiece hk]

theorem paired (hs : fs.Linkless) {paths₁ paths₂ : List Path} {s s₁ s₂ : Session}
    (hfiles : s.files = fs) (hl₁ : i.listFiles dir₁ s = .ok paths₁ s₁)
    (hl₂ : i.listFiles dir₂ s = .ok paths₂ s₂) :
    List.Forall₂ (i.Paired dir₁ dir₂) (i.modulesAmong (paths₁.zipIdx 1))
      (i.modulesAmong (paths₂.zipIdx 1)) := by
  subst hfiles
  have hmap : ∀ paths : List Path, (i.modulesAmong (paths.zipIdx 1)).map Prod.fst =
      paths.filter (i.settings.kindOf · ≠ .ignored) := by
    intro paths
    rw [modulesAmong, ← Function.comp_def (fun p => decide (i.settings.kindOf p ≠ .ignored)),
      ← List.filter_map, List.zipIdx_map_fst]
  have h₁ := (hmap paths₁).trans (filter_listFiles hl₁ g.left)
  have h₂ := (hmap paths₂).trans (filter_listFiles hl₂ g.right)
  have hnames : List.Forall₂ (fun p q => i.Paired dir₁ dir₂ (p, 0) (q, 0))
      ((i.modulesAmong (paths₁.zipIdx 1)).map Prod.fst)
      ((i.modulesAmong (paths₂.zipIdx 1)).map Prod.fst) := by
    rw [h₁, h₂, ← g.modules_eq hs, List.forall₂_map_left_iff, List.forall₂_map_right_iff,
      List.forall₂_same]
    intro n hn
    have hpiece := isPiece_of_mem_modules hn
    obtain ⟨-, hfile, hk⟩ := mem_modules_iff.1 hn
    obtain ⟨c, -, hc⟩ := exists_content_of_isFile hs g.left hpiece hfile
    exact ⟨n, hpiece, hk, g.limits n c hc hk, rfl, rfl⟩
  rwa [List.forall₂_map_left_iff, List.forall₂_map_right_iff] at hnames

end Respells

/-! ## Two runs -/

/-- The run ends with an error at the file of a name. -/
def StopsAt (i : Installer) (dir : Path) (s : Session) (n : Name) (e : InstallError)
    (s' : Session) : Prop :=
  ∃ paths entries number rest t, i.Runs dir s paths entries ((dir.join n, number) :: rest) t ∧
    i.handleListed paths.length (dir.join n) number t = .error e s'

namespace Spelled

variable {s₁ : Session} {report : Report} (g : Spelled i m s₁.files dir₁ dir₂ D)
  (hp : i.provision s = .ok () s₁)
include g hp

theorem installAll_ok (h : i.installAll dir₁ s = .ok report s') :
    ∃ report' t', i.installAll dir₂ s = .ok report' t' ∧
      List.Forall₂ LikeEntry report.entries report'.entries ∧ SameFilesAndStarts s' t' := by
  obtain ⟨paths, hrun⟩ := installAll_ok_iff.1 h
  obtain ⟨hl₁, hr⟩ := reaches_of_runs hp hrun
  have hl₂ := listFiles_of_list (list_eq_ok_iff.2 ⟨D, g.right, rfl⟩)
  obtain ⟨entries', rest', t', hr', hentries, hrest, ht⟩ := g.exists_reaches
    (reaches_modulesAmong hr) ⟨.refl _, .refl g.linkless⟩ (g.paired g.linkless rfl hl₁ hl₂) _
  obtain rfl : rest' = [] := List.forall₂_nil_left_iff.1 hrest
  refine ⟨⟨entries'⟩, t', ?_, hentries, ht.toSameFilesAndStarts⟩
  rw [run_installAll hp hl₂, ← handleAll_modulesAmong, handleAll_ok_iff.2 hr']

theorem installAll_error (h : i.installAll dir₁ s = .error e s') :
    ∃ e' t' n, i.installAll dir₂ s = .error e' t' ∧ SameFilesAndStarts s' t' ∧
      i.StopsAt dir₁ s n e s' ∧ i.StopsAt dir₂ s n e' t' := by
  rcases installAll_error_iff.1 h with h | ⟨s₂, hp', hl⟩ |
    ⟨paths, entries, path, number, rest, t, hrun, he⟩
  · rw [hp] at h
    cases h
  · rw [hp] at hp'
    cases hp'
    rw [listFiles_of_list (list_eq_ok_iff.2 ⟨D, g.left, rfl⟩)] at hl
    cases hl
  obtain ⟨hl₁, hr⟩ := reaches_of_runs hp hrun
  have hl₂ := listFiles_of_list (list_eq_ok_iff.2 ⟨D, g.right, rfl⟩)
  have hpaired := g.paired g.linkless rfl hl₁ hl₂
  generalize (((s₁.files.names D).mergeSort Bytes.le).map dir₂.join).filter
    (s₁.files.isFile i.here) = paths' at hl₂ hpaired
  have hk : i.settings.kindOf path ≠ .ignored := by
    intro hk
    rw [handleListed_ignored _ _ _ hk] at he
    cases he
  have hmodules := reaches_modulesAmong hr
  rw [modulesAmong_cons hk] at hmodules
  -- Both runs have come to the same module, which stops the one and so the other.
  obtain ⟨_, _, t₂, hr₂, -, hrest, ht⟩ := g.exists_reaches hmodules
    ⟨.refl _, .refl g.linkless⟩ hpaired paths'.length
  obtain _ | ⟨⟨n, hn, -, hlimits, rfl, hq⟩, -⟩ := hrest
  rename_i y rest₂
  obtain ⟨path', number'⟩ := y
  obtain rfl : path' = dir₂.join n := hq
  have hturn := g.parallel_handleListed hn ht hk hlimits paths.length number paths'.length number'
  rw [he] at hturn
  cases he' : i.handleListed paths'.length (dir₂.join n) number' t₂ with
  | ok entry t' =>
    rw [he'] at hturn
    exact hturn.elim
  | error e' t' =>
    rw [he'] at hturn
    obtain ⟨entries', rest', hr'⟩ := exists_reaches_of_modulesAmong hr₂
    have hrun' : i.Runs dir₂ s paths' entries' ((dir₂.join n, number') :: rest') t₂ :=
      ⟨s₁, hp, hl₂, hr'⟩
    exact ⟨e', t', n, installAll_error_iff.2 (Or.inr (Or.inr ⟨_, _, _, _, _, _, hrun', he'⟩)),
      hturn.toSameFilesAndStarts, ⟨_, _, _, _, _, hrun, he⟩, ⟨_, _, _, _, _, hrun', he'⟩⟩

end Spelled

/-- How a directory is spelled makes no difference to a run. Where there are no links, and if the
compiler is a program that keeps directories, two runs over one directory end alike, leave the same
files and start the same programs. If the one ends with an error, so does the other, before the
directory is listed or at the same module. -/
theorem installAll_respelled (hi : i.compiler = m.compiler i.settings i.here)
    (hm : m.KeepsDirectories) (hs : s.files.Linkless)
    (hdirs : ∀ s₁, i.provision s = .ok () s₁ → ∃ D, i.Respells s₁.files dir₁ dir₂ D) :
    (∀ report s', i.installAll dir₁ s = .ok report s' →
      ∃ report' t', i.installAll dir₂ s = .ok report' t' ∧
        List.Forall₂ LikeEntry report.entries report'.entries ∧ SameFilesAndStarts s' t') ∧
    ∀ e s', i.installAll dir₁ s = .error e s' → ∃ e' t', i.installAll dir₂ s = .error e' t' ∧
      SameFilesAndStarts s' t' ∧ (i.provision s = .error e s' ∧ i.provision s = .error e' t' ∨
        ∃ n, i.StopsAt dir₁ s n e s' ∧ i.StopsAt dir₂ s n e' t') := by
  cases hp : i.provision s with
  | error e₀ s₀ =>
    have hrun : ∀ dir, i.installAll dir s = .error e₀ s₀ := fun dir => run_bind_of_error hp
    simp only [hrun]
    constructor
    · intro report s' h
      cases h
    · rintro e s' ⟨⟩
      exact ⟨e₀, s₀, rfl, .refl s₀, Or.inl ⟨rfl, rfl⟩⟩
  | ok u s₁ =>
    obtain ⟨D, hrespells⟩ := hdirs s₁ hp
    have g : Spelled i m s₁.files dir₁ dir₂ D :=
      ⟨hrespells, hi, hm, linkless_of_provision hs hp⟩
    refine ⟨fun report s' => g.installAll_ok hp, fun e s' h => ?_⟩
    obtain ⟨e', t', n, hrun, hsame, hstops, hstops'⟩ := g.installAll_error hp h
    exact ⟨e', t', hrun, hsame, Or.inr ⟨n, hstops, hstops'⟩⟩

theorem keepsDirectories_sample : Sample.machine.KeepsDirectories :=
  Rehearsal.keepsDirectories_machine _ (by simp)

theorem compiler_starter : Sample.starter.compiler =
    Sample.machine.compiler Sample.starter.settings Sample.starter.here :=
  rfl

theorem linkless_rooted : Sample.rooted.files.Linkless :=
  (plain_of_nodes (by decide +kernel)).linkless

theorem provision_rooted : Sample.starter.provision Sample.rooted = .ok () Sample.rooted :=
  provision_of_stands (by decide +kernel)

theorem names_rooted :
    Sample.rooted.files.names [Utf8.encode "ww"] = [Utf8.encode "A.java"] := by
  decide +kernel

theorem runSorted_rooted :
    Sample.runSorted Sample.starter (Sample.path "ww") [Utf8.encode "ww"] Sample.rooted =
      some (.inr [("A.java", .installed { path := Sample.path "ww/A.class" }
        (Sample.path "/home/jil/lib/std/A.class"))]) := by
  decide +kernel

theorem respells_rooted :
    Sample.starter.Respells Sample.rooted.files (Sample.path "ww") (Sample.path "/home/../ww/.")
      [Utf8.encode "ww"] := by
  refine ⟨Sample.eq_ok_of_toOption (by decide +kernel),
    Sample.eq_ok_of_toOption (by decide +kernel), fun n content hc _ => ?_⟩
  obtain ⟨x, hx⟩ := content?_eq_some_iff.1 hc
  have hn := mem_names_iff.2 ⟨_, hx⟩
  rw [names_rooted, List.mem_singleton] at hn
  subst hn
  refine ⟨iff_of_false (by decide) (by decide), fun _ a₁ a₂ h₁ h₂ => ?_⟩
  have ha₁ : Sample.starter.settings.artifactPath ((Sample.path "ww").join (Utf8.encode "A.java")) =
      .ok (Sample.path "ww/A.class") := by
    decide
  have ha₂ : Sample.starter.settings.artifactPath
      ((Sample.path "/home/../ww/.").join (Utf8.encode "A.java")) =
      .ok (Sample.path "/home/../ww/A.class") := by
    decide
  rw [ha₁] at h₁
  rw [ha₂] at h₂
  cases h₁
  cases h₂
  exact iff_of_false (by decide) (by decide)

theorem installAll_respelled_rooted :
    ∃ report s' report' t',
      Sample.starter.installAll (Sample.path "ww") Sample.rooted = .ok report s' ∧
      Sample.starter.installAll (Sample.path "/home/../ww/.") Sample.rooted = .ok report' t' ∧
      List.Forall₂ LikeEntry report.entries report'.entries ∧ SameFilesAndStarts s' t' := by
  obtain ⟨s', hrun⟩ := Sample.installAll_of_runSorted runSorted_rooted
  have hdirs : ∀ s₁, Sample.starter.provision Sample.rooted = .ok () s₁ → ∃ D,
      Sample.starter.Respells s₁.files (Sample.path "ww") (Sample.path "/home/../ww/.") D := by
    intro s₁ hp
    rw [provision_rooted] at hp
    rw [← (EStateM.Result.ok.inj hp).2]
    exact ⟨_, respells_rooted⟩
  obtain ⟨report', t', hrun', hentries, hsame⟩ := (installAll_respelled compiler_starter
    keepsDirectories_sample linkless_rooted hdirs).1 _ s' hrun
  exact ⟨_, s', report', t', hrun, hrun', hentries, hsame⟩

/-! ## Where the limit tells -/

theorem artifactPath_of_installed {name : String} {artifact : Artifact} {dest : Path}
    (hi : i.compiler = m.compiler i.settings i.here)
    (h : i.handleListed total path number s = .ok (some (name, .installed artifact dest)) s') :
    i.settings.artifactPath path = .ok artifact.path ∧
      artifact.path.bytes.length < Route.maxLength := by
  obtain ⟨hresult, hmove⟩ := compileAndMove_ok (handleListed_installed h)
  obtain ⟨s₁, hcopy, -⟩ := moveArtifact_ok hmove
  obtain ⟨n, content, -, -, hread, -⟩ := copyModule_ok hcopy
  exact ⟨Machine.artifactPath_of_compiler (hi ▸ hresult), length_lt_of_read hread⟩

/-- A directory, spelled so that a source in it can be found and the artifact cannot. -/
def nearMaxLength : Path := ⟨dotted 2043 (Utf8.encode "ww")⟩

theorem directoryAt_nearMaxLength :
    Sample.rooted.files.directoryAt Sample.starter.here nearMaxLength = .ok [Utf8.encode "ww"] := by
  have hx : IsRelative (Utf8.encode "ww") := ⟨by decide, by decide⟩
  have hlen : 2 * 2043 + (Utf8.encode "ww").length < Route.maxLength := by decide
  rw [nearMaxLength, directoryAt_dotted hx hlen]
  exact respells_rooted.left

theorem nearMaxLength_eq_join :
    nearMaxLength = (Path.mk (dotted 2042 [Bytes.dot])).join (Utf8.encode "ww") :=
  (join_dotted 2042 (IsPiece.isRelative (by decide))).symm

theorem parent?_nearMaxLength : (nearMaxLength.join (Utf8.encode "A.java")).parent? = some nearMaxLength := by
  rw [nearMaxLength_eq_join]
  exact Path.parent?_join_join _ (by decide) (by decide)

theorem artifactPath_nearMaxLength :
    ∃ a, Sample.starter.settings.artifactPath (nearMaxLength.join (Utf8.encode "A.java")) = .ok a ∧
      Route.maxLength ≤ a.bytes.length := by
  have hw : IsPiece (Utf8.encode "ww") := by decide
  have hn : IsPiece (Utf8.encode "A.java") := by decide
  have hx : IsRelative (Utf8.encode "A.class") := ⟨by decide, by decide⟩
  have hk : Sample.starter.settings.kindOf (nearMaxLength.join (Utf8.encode "A.java")) = .source := by
    rw [Settings.kindOf_join_eq _ _ (Sample.path "ww") hn]
    decide
  have hname : Sample.starter.settings.artifactName (Utf8.encode "A.java") =
      Utf8.encode "A.class" := by
    decide
  obtain ⟨-, -, -, -, -, ha⟩ := Settings.exists_stem_of_source hn hk
  rw [hname, Path.withFileName_join hn parent?_nearMaxLength] at ha
  refine ⟨_, ha, ?_⟩
  rw [nearMaxLength_eq_join, Path.join_join _ hw hx, ← nearMaxLength_eq_join, nearMaxLength]
  simp only [List.length_append, length_dotted]
  decide

/-- In a file system without links, a source can be installed from its directory and fail from a
longer spelling of it. -/
theorem installAll_nearMaxLength_differs :
    Sample.starter.compiler = Sample.machine.compiler Sample.starter.settings Sample.starter.here ∧
      Sample.machine.KeepsDirectories ∧ Sample.rooted.files.Linkless ∧
      Sample.starter.provision Sample.rooted = .ok () Sample.rooted ∧
      Sample.rooted.files.directoryAt Sample.starter.here (Sample.path "ww") =
        .ok [Utf8.encode "ww"] ∧
      Sample.rooted.files.directoryAt Sample.starter.here nearMaxLength = .ok [Utf8.encode "ww"] ∧
      ∃ report s', Sample.starter.installAll (Sample.path "ww") Sample.rooted = .ok report s' ∧
        ∀ report' t', Sample.starter.installAll nearMaxLength Sample.rooted = .ok report' t' →
          ¬ List.Forall₂ LikeEntry report.entries report'.entries := by
  refine ⟨compiler_starter, keepsDirectories_sample, linkless_rooted, provision_rooted,
    respells_rooted.left, directoryAt_nearMaxLength, ?_⟩
  obtain ⟨s', hrun⟩ := Sample.installAll_of_runSorted runSorted_rooted
  refine ⟨_, s', hrun, fun report' t' hrun' halike => ?_⟩
  obtain ⟨a, dest, hmem⟩ : ∃ a dest, ("A.java", Outcome.installed a dest) ∈ report'.entries := by
    obtain ⟨⟨name, outcome⟩, entries, ⟨rfl, hlike⟩, -, heq⟩ := List.forall₂_cons_left_iff.1 halike
    rw [heq]
    cases outcome with
    | installed a dest => exact ⟨a, dest, List.mem_cons_self⟩
    | copied dest => exact hlike.elim
    | failed e => exact hlike.elim
  obtain ⟨paths, hruns⟩ := installAll_ok_iff.1 hrun'
  obtain ⟨hl, hr⟩ := reaches_of_runs provision_rooted hruns
  obtain ⟨_, path, number, _, _, _, hr', hturn⟩ := entries_of_reaches hr hmem
  have hlisted := List.fst_mem_of_mem_zipIdx ((suffix_of_reaches hr').subset List.mem_cons_self)
  have hlist := list_of_sorted directoryAt_nearMaxLength (by rw [names_rooted]; simp)
  rw [listFiles_of_list hlist] at hl
  rw [← (EStateM.Result.ok.inj hl).1, names_rooted] at hlisted
  obtain rfl : nearMaxLength.join (Utf8.encode "A.java") = path :=
    (List.mem_singleton.1 (List.mem_filter.1 hlisted).1).symm
  -- The artifact would have to be both short and long.
  obtain ⟨ha, hshort⟩ := artifactPath_of_installed compiler_starter hturn
  obtain ⟨a', ha', hlong⟩ := artifactPath_nearMaxLength
  rw [ha'] at ha
  rw [Except.ok.inj ha] at hlong
  exact Nat.not_le_of_lt hshort hlong

end ModuleInstall.Installer
