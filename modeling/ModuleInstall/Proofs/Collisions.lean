import Mathlib.Data.Finset.Card
import Mathlib.Data.Finset.Image
import ModuleInstall.Proofs.Kinds
import ModuleInstall.Proofs.Listing
import ModuleInstall.Proofs.Sample
import ModuleInstall.Proofs.Turns

/-! # Modules in one place -/

namespace ModuleInstall

open FileSystem

/-- Where the module was put, if it was. -/
def Outcome.dest? : Outcome → Option Path
  | installed _ dest => some dest
  | copied dest => some dest
  | failed _ => none

/-- What stands before the last dot of a name. -/
def Name.stem? (n : Name) : Option Bytes := (splitAtLast Bytes.dot n).map Prod.fst

/-! ## The name of a module -/

namespace Settings

variable {s : Settings} {dir : Path} {n m : Name}

theorem exists_stem?_of_source (hn : IsPiece n) (h : s.kindOf (dir.join n) = .source) :
    ∃ stem, n.stem? = some stem ∧ s.artifactName n = stem ++ Bytes.dot :: s.compiledExt := by
  obtain ⟨stem, ext, rfl, hd, ha, -⟩ := exists_stem_of_source hn h
  exact ⟨stem, by rw [Name.stem?, splitAtLast_append stem hd]; rfl, ha⟩

theorem artifactName_ne (h : s.TellsApart) (hn : IsPiece n) (hm : IsPiece m)
    (hs : s.kindOf (dir.join n) = .source) (hp : s.kindOf (dir.join m) = .precompiled) :
    s.artifactName n ≠ m := by
  rintro rfl
  rw [kindOf_artifactName h hn hs] at hp
  cases hp

theorem artifactName_eq_iff (hn : IsPiece n) (hm : IsPiece m) (hs : s.kindOf (dir.join n) = .source)
    (hs' : s.kindOf (dir.join m) = .source) :
    s.artifactName n = s.artifactName m ↔ n.stem? = m.stem? := by
  obtain ⟨stem, hstem, ha⟩ := exists_stem?_of_source hn hs
  obtain ⟨stem', hstem', ha'⟩ := exists_stem?_of_source hm hs'
  rw [ha, ha', hstem, hstem', List.append_left_inj, Option.some.injEq]

theorem moduleName_eq_iff (h : s.TellsApart) (hn : IsPiece n) (hm : IsPiece m) (hne : n ≠ m)
    (hkn : s.kindOf (dir.join n) ≠ .ignored) (hkm : s.kindOf (dir.join m) ≠ .ignored) :
    s.moduleName dir n = s.moduleName dir m ↔
      s.kindOf (dir.join n) = .source ∧ s.kindOf (dir.join m) = .source ∧ n.stem? = m.stem? := by
  unfold moduleName
  cases hk : s.kindOf (dir.join n) with
  | ignored => exact absurd hk hkn
  | source =>
    cases hk' : s.kindOf (dir.join m) with
    | ignored => exact absurd hk' hkm
    | source => simpa using artifactName_eq_iff hn hm hk hk'
    | precompiled => simpa using artifactName_ne h hn hm hk hk'
  | precompiled =>
    cases hk' : s.kindOf (dir.join m) with
    | ignored => exact absurd hk' hkm
    | source => simpa [eq_comm] using artifactName_ne h hm hn hk' hk
    | precompiled => simpa using hne

end Settings

/-! ## One turn -/

namespace Installer

open ModuleInstall.Action

variable {i : Installer} {dir dest : Path} {n : Name} {s s' t t' : Session} {total number : Nat}
  {name : String} {outcome : Outcome} {items rest : List (Path × Nat)}
  {entries : List (String × Outcome)} {report : Report}

/-- The compiler reports each artifact where it is expected. -/
def ReportsExpected (i : Installer) : Prop :=
  ∀ fs source artifact, (i.compiler fs source).result = .ok artifact →
    i.settings.artifactPath source = .ok artifact.path

/-- What an outcome has to do with the file that it is of. -/
structure Fits (i : Installer) (dir : Path) (n : Name) (outcome : Outcome) : Prop where
  handled : i.settings.kindOf (dir.join n) ≠ .ignored
  source_of_installed : outcome.isInstalled = true → i.settings.kindOf (dir.join n) = .source
  installed_of_source : i.settings.kindOf (dir.join n) = .source → outcome.dest? ≠ none →
    outcome.isInstalled = true
  dest : ∀ d, outcome.dest? = some d →
    d = i.settings.tree.modulePath (i.settings.moduleName dir n)

theorem fits_of_handleListed (hr : i.ReportsExpected) (ht : i.settings.TellsApart) (hn : IsPiece n)
    (h : i.handleListed total (dir.join n) number t = .ok (some (name, outcome)) t') :
    name = listedName (dir.join n) ∧ i.Fits dir n outcome := by
  rw [run_handleListed] at h
  cases hk : i.settings.kindOf (dir.join n) with
  | ignored =>
    rw [hk] at h
    cases h
  | precompiled =>
    rw [hk, handle_precompiled] at h
    cases hc : i.copyModule (dir.join n) (i.announcing total (dir.join n) number t) with
    | error e t₁ => simp [hc] at h
    | ok d t₁ =>
      simp only [hc] at h
      cases h
      obtain ⟨m, content, hm, rfl, -, -⟩ := copyModule_ok hc
      rw [Path.fileName?_join dir hn] at hm
      cases hm
      refine ⟨rfl, ⟨by simp [hk], by simp [Outcome.isInstalled], by simp [hk], ?_⟩⟩
      intro d hd
      cases hd
      simp [Settings.moduleName, hk]
  | source =>
    rw [hk, handle_source] at h
    cases hc : i.compileAndMove (dir.join n) (i.announcing total (dir.join n) number t) with
    | error e t₁ =>
      simp only [hc] at h
      cases h
      exact ⟨rfl, ⟨by simp [hk], fun _ => hk, by simp [Outcome.dest?], by simp [Outcome.dest?]⟩⟩
    | ok r t₁ =>
      obtain ⟨artifact, d⟩ := r
      simp only [hc] at h
      cases h
      obtain ⟨hres, hmove⟩ := compileAndMove_ok hc
      obtain ⟨t₂, hcopy, -⟩ := moveArtifact_ok hmove
      obtain ⟨m, content, hm, rfl, -, -⟩ := copyModule_ok hcopy
      obtain ⟨stem, ext, -, -, -, hpath⟩ := Settings.exists_stem_of_source hn hk
      have hartifact : artifact.path = (dir.join n).withFileName (i.settings.artifactName n) :=
        (Except.ok.inj (hpath.symm.trans (hr _ _ _ hres))).symm
      rw [hartifact, Path.fileName?_withFileName _ (Settings.isPiece_artifactName ht hn hk)] at hm
      cases hm
      refine ⟨rfl, ⟨by simp [hk], fun _ => hk, fun _ _ => rfl, ?_⟩⟩
      intro d hd
      cases hd
      simp [Settings.moduleName, hk]

theorem dest?_eq_iff (ht : i.settings.TellsApart) {m : Name} {other : Outcome} (hn : IsPiece n)
    (hm : IsPiece m) (hne : n ≠ m) (h : i.Fits dir n outcome) (h' : i.Fits dir m other)
    (hd : outcome.dest? = some dest) (hd' : other.dest? ≠ none) :
    other.dest? = some dest ↔ outcome.isInstalled ∧ other.isInstalled ∧ n.stem? = m.stem? := by
  obtain ⟨dest', heq⟩ := Option.ne_none_iff_exists'.1 hd'
  have hinj : dest' = dest ↔ i.settings.moduleName dir n = i.settings.moduleName dir m := by
    rw [h.dest _ hd, h'.dest _ heq]
    constructor
    · intro hj
      exact (Path.join_injective _ (Settings.isPiece_moduleName ht hm)
        (Settings.isPiece_moduleName ht hn) hj).symm
    · intro hj
      rw [hj]
  have hs : i.settings.kindOf (dir.join n) = .source ↔ outcome.isInstalled = true :=
    ⟨fun hk => h.installed_of_source hk (by simp [hd]), h.source_of_installed⟩
  have hs' : i.settings.kindOf (dir.join m) = .source ↔ other.isInstalled = true :=
    ⟨fun hk => h'.installed_of_source hk hd', h'.source_of_installed⟩
  rw [heq, Option.some.injEq, hinj,
    Settings.moduleName_eq_iff ht hn hm hne h.handled h'.handled, hs, hs']

/-! ## A run -/

theorem exists_handled (hr : i.ReportsExpected) (ht : i.settings.TellsApart) (names : List Name)
    (k : Nat) (hp : ∀ n ∈ names, IsPiece n)
    (h : i.handleAll total ((names.map dir.join).zipIdx k) t = .ok entries t') :
    ∃ handled : List (Name × Outcome),
      entries = handled.map (fun e => (Utf8.toText e.1, e.2)) ∧
      (handled.map Prod.fst).Sublist names ∧ ∀ e ∈ handled, i.Fits dir e.1 e.2 := by
  induction names generalizing k t entries with
  | nil =>
    cases h
    exact ⟨[], rfl, List.Sublist.slnil, by simp⟩
  | cons n names ih =>
    rw [List.forall_mem_cons] at hp
    obtain ⟨hn, hp⟩ := hp
    rw [List.map_cons, List.zipIdx_cons] at h
    cases hl : i.handleListed total (dir.join n) k t with
    | error e t₁ => simp [handleAll_cons_of_error hl] at h
    | ok entry t₁ =>
      rw [handleAll_cons_of_ok hl] at h
      cases hall : i.handleAll total ((names.map dir.join).zipIdx (k + 1)) t₁ with
      | error e t₂ => simp [hall] at h
      | ok more t₂ =>
        simp only [hall] at h
        cases h
        obtain ⟨handled, rfl, hsub, hfits⟩ := ih (k + 1) hp hall
        cases entry with
        | none => exact ⟨handled, rfl, hsub.cons n, hfits⟩
        | some entry =>
          obtain ⟨name, outcome⟩ := entry
          obtain ⟨rfl, hf⟩ := fits_of_handleListed hr ht hn hl
          refine ⟨(n, outcome) :: handled, ?_, hsub.cons_cons n, ?_⟩
          · simp [listedName, Path.fileName?_join dir hn]
          · rw [List.forall_mem_cons]
            exact ⟨hf, hfits⟩

theorem dest?_ne_none (h : outcome.isInstalled = true) : outcome.dest? ≠ none := by
  cases outcome with
  | installed artifact d => simp [Outcome.dest?]
  | copied d => cases h
  | failed e => cases h

theorem pairwise_of_fits (ht : i.settings.TellsApart) {handled : List (Name × Outcome)}
    (hnodup : (handled.map Prod.fst).Nodup) (hpiece : ∀ n ∈ handled.map Prod.fst, IsPiece n)
    (hfits : ∀ e ∈ handled, i.Fits dir e.1 e.2) :
    handled.Pairwise fun a b => ∀ d, a.2.dest? = some d →
      (b.2.dest? = some d ↔ a.2.isInstalled ∧ b.2.isInstalled ∧ a.1.stem? = b.1.stem?) := by
  refine (List.pairwise_map.1 hnodup).imp_of_mem fun {a b} ha hb hne d hd => ?_
  have hpa := hpiece _ (List.mem_map_of_mem ha)
  have hpb := hpiece _ (List.mem_map_of_mem hb)
  by_cases hdb : b.2.dest? = none
  · refine iff_of_false (by simp [hdb]) ?_
    rintro ⟨-, hi, -⟩
    exact dest?_ne_none hi hdb
  · exact dest?_eq_iff ht hpa hpb hne (hfits a ha) (hfits b hb) hd hdb

theorem card_dests {handled : List (Name × Outcome)}
    (h : handled.Pairwise fun a b => ∀ d, a.2.dest? = some d →
      (b.2.dest? = some d ↔ a.2.isInstalled ∧ b.2.isInstalled ∧ a.1.stem? = b.1.stem?)) :
    (handled.filterMap fun e => e.2.dest?).toFinset.card =
      (handled.countP fun e => e.2.isCopied) +
        ((handled.filter fun e => e.2.isInstalled).map fun e => e.1.stem?).toFinset.card := by
  induction handled with
  | nil => rfl
  | cons e handled ih =>
    obtain ⟨n, outcome⟩ := e
    rw [List.pairwise_cons] at h
    obtain ⟨hfirst, h⟩ := h
    have ih := ih h
    cases outcome with
    | failed error => simpa [Outcome.dest?, Outcome.isCopied, Outcome.isInstalled] using ih
    | copied d =>
      have hnot : d ∉ (handled.filterMap fun e => e.2.dest?).toFinset := by
        rw [List.mem_toFinset, List.mem_filterMap]
        rintro ⟨e, he, hd⟩
        have := ((hfirst e he d rfl).1 hd).1
        cases this
      have hcons : (((n, Outcome.copied d) :: handled).filterMap fun e => e.2.dest?) =
          d :: handled.filterMap fun e => e.2.dest? := by simp [Outcome.dest?]
      rw [hcons, List.toFinset_cons, Finset.card_insert_of_notMem hnot, ih]
      simp [Outcome.isCopied, Outcome.isInstalled]
      omega
    | installed artifact d =>
      have hcons : (((n, Outcome.installed artifact d) :: handled).filterMap fun e => e.2.dest?) =
          d :: handled.filterMap fun e => e.2.dest? := by simp [Outcome.dest?]
      -- The place is new exactly if the stem is.
      have hnew : d ∈ (handled.filterMap fun e => e.2.dest?).toFinset ↔
          n.stem? ∈ ((handled.filter fun e => e.2.isInstalled).map fun e => e.1.stem?).toFinset := by
        simp only [List.mem_toFinset, List.mem_filterMap, List.mem_map, List.mem_filter]
        constructor
        · rintro ⟨e, he, hd⟩
          obtain ⟨-, hi, hs⟩ := (hfirst e he d rfl).1 hd
          exact ⟨e, ⟨he, hi⟩, hs.symm⟩
        · rintro ⟨e, ⟨he, hi⟩, hs⟩
          exact ⟨e, he, (hfirst e he d rfl).2 ⟨rfl, hi, hs.symm⟩⟩
      rw [hcons, List.toFinset_cons, Finset.card_insert_eq_ite, ih]
      simp only [List.countP_cons, List.filter_cons, Outcome.isCopied, Outcome.isInstalled, if_true,
        List.map_cons, List.toFinset_cons, Finset.card_insert_eq_ite, hnew, Bool.false_eq_true,
        if_false]
      split <;> omega

/-- In a run whose compiler reports artifacts where they are expected, modules lie in one place
exactly if they are of sources of one stem. There are as many places as copied modules and stems of
installed sources. -/
theorem dests_of_installAll (hr : i.ReportsExpected) (ht : i.settings.TellsApart)
    (h : i.installAll dir s = .ok report s') :
    ∃ handled : List (Name × Outcome),
      report.entries = handled.map (fun e => (Utf8.toText e.1, e.2)) ∧
      (∃ s₁ names, i.provision s = .ok () s₁ ∧ s₁.files.list i.here dir = .ok names ∧
        (handled.map Prod.fst).Sublist names ∧ names.Nodup) ∧
      (handled.Pairwise fun a b => ∀ d, a.2.dest? = some d →
        (b.2.dest? = some d ↔ a.2.isInstalled ∧ b.2.isInstalled ∧ a.1.stem? = b.1.stem?)) ∧
      (report.entries.filterMap fun e => e.2.dest?).toFinset.card = report.copied +
        ((handled.filter fun e => e.2.isInstalled).map fun e => e.1.stem?).toFinset.card ∧
      (report.installed + report.copied =
          (report.entries.filterMap fun e => e.2.dest?).toFinset.card ↔
        ((handled.filter fun e => e.2.isInstalled).map fun e => e.1.stem?).Nodup) := by
  obtain ⟨paths, s₁, hp, hl, hreach⟩ := installAll_ok_iff.1 h
  obtain ⟨-, names, hlist, rfl⟩ := listFiles_ok hl
  have hnames : names.Nodup := (pairwise_of_list hlist).imp fun h => h.2
  have hpiece : ∀ n ∈ names, IsPiece n := by
    intro n hn
    obtain ⟨loc, hd, -⟩ := list_eq_ok_iff.1 hlist
    obtain ⟨node, hx⟩ := (mem_list_iff hd hlist).1 hn
    exact (proper_of_node? hx).isPiece
  rw [List.filter_map] at hreach
  obtain ⟨handled, hentries, hsub, hfits⟩ := exists_handled hr ht _ 1
    (fun n hn => hpiece n (List.mem_filter.1 hn).1) (handleAll_ok_iff.2 hreach)
  have hsub' := hsub.trans List.filter_sublist
  have hpair := pairwise_of_fits ht (hnames.sublist hsub')
    (fun n hn => hpiece n (hsub'.subset hn)) hfits
  have hcard := card_dests hpair
  have hdests : (report.entries.filterMap fun e => e.2.dest?) =
      handled.filterMap fun e => e.2.dest? := by
    rw [hentries, List.filterMap_map]
    rfl
  have hcopied : report.copied = handled.countP fun e => e.2.isCopied := by
    rw [Report.copied, hentries, List.countP_map]
    rfl
  have hinstalled : report.installed =
      ((handled.filter fun e => e.2.isInstalled).map fun e => e.1.stem?).length := by
    rw [Report.installed, hentries, List.countP_map, List.length_map,
      ← List.countP_eq_length_filter]
    rfl
  refine ⟨handled, hentries, ⟨s₁, names, hp, hlist, hsub', hnames⟩, hpair, ?_, ?_⟩
  · rw [hdests, hcopied, hcard]
  · rw [hdests, hcopied, hcard, hinstalled]
    have hiff : ∀ l : List (Option Bytes), l.toFinset.card = l.length ↔ l.Nodup :=
      fun l => Multiset.toFinset_card_eq_card_iff_nodup
    rw [← hiff]
    constructor <;> intro heq <;> omega

theorem reportsExpected_writer : Sample.writer.ReportsExpected := by
  intro fs source artifact h
  unfold Sample.writer Sample.writing at h
  dsimp only at h
  split at h
  · cases h
  · rename_i path hpath
    split at h <;> cases h
    exact hpath

theorem dests_of_mixed :
    ∃ (report : Report) (s' : Session) (handled : List (Name × Outcome)),
      Sample.writer.installAll (Sample.path "w") Sample.mixed = .ok report s' ∧
      report.entries = handled.map (fun e => (Utf8.toText e.1, e.2)) ∧
      (report.entries.filterMap fun e => e.2.dest?).toFinset.card = report.copied +
        ((handled.filter fun e => e.2.isInstalled).map fun e => e.1.stem?).toFinset.card := by
  obtain ⟨s', h⟩ := Sample.installAll_of_runSorted Sample.runSorted_mixed
  obtain ⟨handled, hentries, -, -, hcard, -⟩ :=
    dests_of_installAll reportsExpected_writer (Settings.tellsApart_of_default rfl rfl rfl) h
  exact ⟨_, s', handled, h, hentries, hcard⟩

end Installer

/-- Two sources of one stem. -/
def Sample.clashing : Session :=
  start [.file (path "w/A.JAVA") [0x61], .file (path "w/A.java") [0x62], .directory (path "home")]

/-- Two sources of one stem have one place. -/
theorem Installer.dests_of_clashing :
    Sample.writer.ReportsExpected ∧
      ∃ (report : Report) (s' : Session),
        Sample.writer.installAll (Sample.path "w") Sample.clashing = .ok report s' ∧
        ¬ (report.entries.filterMap fun e => e.2.dest?).Nodup ∧
        report.installed + report.copied ≠
          (report.entries.filterMap fun e => e.2.dest?).toFinset.card := by
  have hrun : Sample.runSorted Sample.writer (Sample.path "w") [Utf8.encode "w"] Sample.clashing =
      some (.inr [("A.JAVA", .installed { path := Sample.path "w/A.class" }
          (Sample.path "home/jil/lib/std/A.class")),
        ("A.java", .installed { path := Sample.path "w/A.class" }
          (Sample.path "home/jil/lib/std/A.class"))]) := by decide +kernel
  obtain ⟨s', h⟩ := Sample.installAll_of_runSorted hrun
  refine ⟨reportsExpected_writer, _, s', h, ?_, ?_⟩
  · simp [Outcome.dest?]
  · simp [Outcome.dest?, Report.installed, Report.copied, Outcome.isInstalled, Outcome.isCopied]

end ModuleInstall
