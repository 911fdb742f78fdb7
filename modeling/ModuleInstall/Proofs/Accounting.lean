import Mathlib.Data.List.Forall2
import ModuleInstall.Proofs.Calling
import ModuleInstall.Proofs.Encoding
import ModuleInstall.Proofs.Singly
import ModuleInstall.Proofs.Sorting
import ModuleInstall.Proofs.Spelling

/-! # What a report accounts for -/

namespace ModuleInstall

open FileSystem

/-! ## Files in a directory -/

namespace FileSystem

variable {fs : FileSystem} {here loc : Location} {p : Path} {n : Name}

theorem isFile_join_iff (hd : fs.directoryAt here p = .ok loc) {content : Bytes} {executable : Bool}
    (hx : fs.node? (n :: loc) = some (.file content executable)) :
    fs.isFile here (p.join n) = true ↔ (p.join n).bytes.length < Route.maxLength := by
  constructor
  · intro hfile
    refine Nat.lt_of_not_le fun hlong => ?_
    rw [isFile_of_long hlong] at hfile
    cases hfile
  · intro hlen
    obtain ⟨place, hw, rfl, hdir⟩ := directoryAt_eq_ok_iff.1 hd
    obtain ⟨route, hr, ha⟩ := walk_eq_ok_iff.1 hw
    have hn := proper_of_node? hx
    obtain ⟨hne, rfl⟩ := Path.route_eq_ok hr
    obtain ⟨hsteps, hslash⟩ := Path.ofBytes_piece hn.isPiece
    have hroute := Path.route_join hr hn.isPiece.isRelative hn.2.2.2.2.1 hlen
    have hone : fs.stretch .followed false place.location [.name n] =
        .ends (.entry place.location n false) := by
      rw [stretch_last_of_not_link (by simp [hx])]
      simp [Nat.not_lt.2 hn.2.2.2.2.2]
    have hwalk : fs.walk .followed here (p.join n) = .ok (.entry place.location n false) := by
      refine walk_eq_ok_iff.2 ⟨_, hroute, ?_⟩
      rw [Path.ofBytes_join hne hn.isPiece.isRelative, hsteps, hslash]
      exact arrives_append (by simp) ha hdir hone
    have hstat : fs.stat here (p.join n) = .ok (.file content executable) :=
      stat_eq_ok_iff.2 ⟨_, hwalk, nodeAt_eq_ok_iff.2 ⟨hx, by simp⟩⟩
    rw [isFile, hstat]

end FileSystem

/-! ## Names that tell a kind -/

/-- What comes after the last dot of a name is the extension, up to the case of ASCII letters. -/
def EndsIn (name : String) (ext : Bytes) : Prop :=
  ∃ stem tail, Utf8.encode name = stem ++ Bytes.dot :: tail ∧ Bytes.dot ∉ tail ∧
    Bytes.sameIgnoringCase tail ext = true

namespace Settings

variable {s : Settings} {p : Path} {n : Name} {name : String}

theorem kindOf_source_iff_endsIn (hf : p.fileName? = some (Utf8.encode name)) :
    s.kindOf p = .source ↔ EndsIn name s.sourceExt := by
  rw [kindOf_eq_source_iff]
  simp only [stemAndExtension?_eq_some_iff, hf, Option.some.injEq, EndsIn]
  constructor
  · rintro ⟨stem, ext, ⟨he, -, hd⟩, hs⟩
    exact ⟨stem, ext, he, hd, hs⟩
  · rintro ⟨stem, ext, he, hd, hs⟩
    exact ⟨stem, ext, ⟨he, he ▸ Utf8.isText_encode name, hd⟩, hs⟩

theorem kindOf_ne_ignored_iff_endsIn (hf : p.fileName? = some (Utf8.encode name)) :
    s.kindOf p ≠ .ignored ↔ EndsIn name s.sourceExt ∨ EndsIn name s.precompiledExt := by
  constructor
  · intro h
    cases hk : s.kindOf p with
    | ignored => exact absurd hk h
    | source => exact Or.inl ((kindOf_source_iff_endsIn hf).1 hk)
    | precompiled =>
      obtain ⟨stem, ext, hse, -, hp⟩ := kindOf_eq_precompiled_iff.1 hk
      obtain ⟨hn, -, hd⟩ := stemAndExtension?_eq_some_iff.1 hse
      exact Or.inr ⟨stem, ext, Option.some.inj (hf.symm.trans hn), hd, hp⟩
  · rintro (h | ⟨stem, ext, he, hd, hp⟩)
    · simp [(kindOf_source_iff_endsIn hf).2 h]
    · have hse : p.stemAndExtension? = some (stem, ext) := by
        rw [stemAndExtension?_eq_some_iff, ← he]
        exact ⟨hf, Utf8.isText_encode name, hd⟩
      cases hs : Bytes.sameIgnoringCase ext s.sourceExt with
      | true => simp [kindOf_eq_source_iff.2 ⟨stem, ext, hse, hs⟩]
      | false => simp [kindOf_eq_precompiled_iff.2 ⟨stem, ext, hse, hs, hp⟩]

theorem isText_of_kindOf (hf : p.fileName? = some n) (h : s.kindOf p ≠ .ignored) :
    Utf8.isText n = true := by
  cases hse : p.stemAndExtension? with
  | none => simp [kindOf, hse] at h
  | some r =>
    obtain ⟨hn, ht, -⟩ := stemAndExtension?_eq_some_iff.1 hse
    rw [hf] at hn
    cases hn
    exact ht

end Settings

namespace Report

variable {r : Report} {name : String} {outcome : Outcome}

theorem counts (r : Report) :
    r.installed + r.copied + r.failures.length = r.entries.length := by
  unfold installed copied failures
  induction r.entries with
  | nil => rfl
  | cons entry entries ih =>
    obtain ⟨name, outcome⟩ := entry
    cases outcome <;> simp [Outcome.isInstalled, Outcome.isCopied, Outcome.error?] at ih ⊢ <;> omega

theorem outcome?_of_mem (hn : (r.entries.map Prod.fst).Nodup) (hm : (name, outcome) ∈ r.entries) :
    r.outcome? name = some outcome := by
  obtain ⟨before, more, heq⟩ := List.append_of_mem hm
  rw [heq, List.map_append, List.map_cons, List.nodup_append] at hn
  refine List.lookup_eq_some_iff.2 ⟨before, more, heq, fun e he => ?_⟩
  rw [bne_iff_ne]
  exact fun h => hn.2.2 _ (List.mem_map_of_mem he) _ List.mem_cons_self h.symm

end Report

namespace Installer

open ModuleInstall.Action

variable {i : Installer} {path dir : Path} {s s' s₁ t t' : Session} {total number : Nat}
  {name : String} {outcome : Outcome} {items : List (Path × Nat)} {paths : List Path}
  {entries : List (String × Outcome)} {report : Report} {fs : FileSystem} {loc : Location}

/-! ## A turn and its entry -/

/-- An entry is called like its file, and its outcome is one that a file of that kind can have. -/
structure EntryOf (i : Installer) (path : Path) (entry : String × Outcome) : Prop where
  name : entry.1 = listedName path
  source : i.settings.kindOf path = .source → entry.2.isInstalled ∨ entry.2.error?.isSome
  precompiled : i.settings.kindOf path = .precompiled → entry.2.isCopied

theorem entryOf_handleListed {entry : Option (String × Outcome)}
    (h : i.handleListed total path number s = .ok entry s') :
    match entry with
    | none => i.settings.kindOf path = .ignored
    | some entry => i.settings.kindOf path ≠ .ignored ∧ i.EntryOf path entry := by
  rw [run_handleListed] at h
  cases hk : i.settings.kindOf path with
  | ignored =>
    rw [hk] at h
    cases h
    rfl
  | precompiled =>
    rw [hk, handle_precompiled] at h
    cases hc : i.copyModule path (i.announcing total path number s) with
    | error e t => simp [hc] at h
    | ok dest t =>
      simp only [hc] at h
      cases h
      exact ⟨by simp, rfl, by simp [hk], fun _ => rfl⟩
  | source =>
    rw [hk, handle_source] at h
    cases hc : i.compileAndMove path (i.announcing total path number s) with
    | error e t =>
      simp only [hc] at h
      cases h
      exact ⟨by simp, rfl, fun _ => Or.inr rfl, by simp [hk]⟩
    | ok built t =>
      simp only [hc] at h
      cases h
      exact ⟨by simp, rfl, fun _ => Or.inl rfl, by simp [hk]⟩

theorem entries_of_handleAll (h : i.handleAll total items s = .ok entries s') :
    List.Forall₂ i.EntryOf ((items.map Prod.fst).filter (i.settings.kindOf · ≠ .ignored))
      entries := by
  induction items generalizing s entries with
  | nil =>
    cases h
    exact .nil
  | cons item items ih =>
    obtain ⟨path, number⟩ := item
    cases hl : i.handleListed total path number s with
    | error e t => simp [handleAll_cons_of_error hl] at h
    | ok entry t =>
      rw [handleAll_cons_of_ok hl] at h
      cases hrest : i.handleAll total items t with
      | error e t' => simp [hrest] at h
      | ok more t' =>
        simp only [hrest] at h
        cases h
        have hentry := entryOf_handleListed hl
        cases entry with
        | none => simpa [hentry] using ih hrest
        | some entry => simpa [hentry.1] using List.Forall₂.cons hentry.2 (ih hrest)

theorem forall₂_entryOf_of_reaches
    (h : i.Reaches total (paths.zipIdx 1) s entries [] s') :
    List.Forall₂ i.EntryOf (paths.filter (i.settings.kindOf · ≠ .ignored)) entries := by
  have hentries := entries_of_handleAll (handleAll_ok_iff.2 h)
  rwa [List.zipIdx_map_fst] at hentries

/-! ## The report -/

theorem names_of_entries (h : List.Forall₂ i.EntryOf paths entries) :
    entries.map Prod.fst = paths.map listedName := by
  induction h with
  | nil => rfl
  | cons hentry _ ih => rw [List.map_cons, List.map_cons, ih, hentry.name]

theorem exists_entryOf (h : List.Forall₂ i.EntryOf paths entries)
    (hm : (name, outcome) ∈ entries) : ∃ path ∈ paths, i.EntryOf path (name, outcome) := by
  induction h with
  | nil => cases hm
  | cons hentry _ ih =>
    rcases List.mem_cons.1 hm with rfl | hm
    · exact ⟨_, List.mem_cons_self, hentry⟩
    · obtain ⟨path, hp, he⟩ := ih hm
      exact ⟨path, List.mem_cons_of_mem _ hp, he⟩

theorem encode_of_mem_modules {n : Name} (h : n ∈ i.modules dir fs loc) :
    Utf8.encode (listedName (dir.join n)) = n := by
  have hf := Path.fileName?_join dir (isPiece_of_mem_modules h)
  have htext := Settings.isText_of_kindOf hf (mem_modules_iff.1 h).2.2
  simp only [listedName, hf, Option.getD_some, Utf8.encode_toText htext]

/-- The entries of a report account for the modules of a directory, which stands at `loc` in the file
system `fs`. -/
structure Accounts (i : Installer) (dir : Path) (fs : FileSystem) (loc : Location)
    (report : Report) : Prop where
  increasing : ((report.entries.map Prod.fst).map Utf8.encode).Pairwise fun a b =>
    Bytes.le a b = true ∧ a ≠ b
  listed : ∀ name, name ∈ report.entries.map Prod.fst ↔
    Utf8.encode name ∈ fs.names loc ∧ fs.isFile i.here (dir.join (Utf8.encode name)) = true ∧
      (EndsIn name i.settings.sourceExt ∨ EndsIn name i.settings.precompiledExt)
  sources : ∀ name outcome, (name, outcome) ∈ report.entries → EndsIn name i.settings.sourceExt →
    outcome.isInstalled ∨ outcome.error?.isSome
  precompiled : ∀ name outcome, (name, outcome) ∈ report.entries →
    ¬ EndsIn name i.settings.sourceExt → outcome.isCopied
  found : ∀ name outcome, (name, outcome) ∈ report.entries → report.outcome? name = some outcome
  counted : report.installed + report.copied + report.failures.length = report.entries.length
  /-- The order in which the directory yields its names does not matter. -/
  yielded : ∀ names : List Name, names.Perm (fs.names loc) →
    report.entries.map Prod.fst =
      ((((names.map dir.join).filter (fs.isFile i.here)).mergeSort Path.le).filter
        (i.settings.kindOf · ≠ .ignored)).map listedName

theorem encode_of_entries
    (h : List.Forall₂ i.EntryOf ((i.modules dir fs loc).map dir.join) entries) :
    (entries.map Prod.fst).map Utf8.encode = i.modules dir fs loc := by
  have hsame : ∀ n ∈ i.modules dir fs loc, ((Utf8.encode ∘ listedName) ∘ dir.join) n = id n := by
    intro n hn
    rw [Function.comp_apply, Function.comp_apply, encode_of_mem_modules hn, id]
  rw [names_of_entries h, List.map_map, List.map_map, List.map_congr_left hsame, List.map_id]

theorem entryOf_join (h : List.Forall₂ i.EntryOf ((i.modules dir fs loc).map dir.join) entries)
    (hm : (name, outcome) ∈ entries) :
    (dir.join (Utf8.encode name)).fileName? = some (Utf8.encode name) ∧
      i.settings.kindOf (dir.join (Utf8.encode name)) ≠ .ignored ∧
      i.EntryOf (dir.join (Utf8.encode name)) (name, outcome) := by
  obtain ⟨path, hp, he⟩ := exists_entryOf h hm
  obtain ⟨n, hn, rfl⟩ := List.mem_map.1 hp
  obtain rfl : Utf8.encode name = n :=
    (congrArg Utf8.encode he.name).trans (encode_of_mem_modules hn)
  exact ⟨Path.fileName?_join dir (isPiece_of_mem_modules hn), (mem_modules_iff.1 hn).2.2, he⟩

theorem accounts_of_entries (hl : i.listFiles dir s = .ok paths s₁)
    (hd : s.files.directoryAt i.here dir = .ok loc)
    (h : List.Forall₂ i.EntryOf (paths.filter (i.settings.kindOf · ≠ .ignored)) report.entries) :
    i.Accounts dir s.files loc report := by
  have hforall := h
  rw [filter_listFiles hl hd] at hforall
  have hencode := encode_of_entries hforall
  have hpairwise := i.pairwise_modules dir s.files loc
  rw [← hencode] at hpairwise
  constructor
  case increasing => exact hpairwise
  case listed =>
    intro name
    rw [← List.mem_map_of_injective Utf8.encode_injective, hencode, mem_modules_iff]
    refine and_congr_right fun hname => and_congr_right fun _ => ?_
    obtain ⟨node, hx⟩ := mem_names_iff.1 hname
    have hn := (proper_of_node? hx).isPiece
    exact Settings.kindOf_ne_ignored_iff_endsIn (Path.fileName?_join dir hn)
  case sources =>
    intro name outcome hm hends
    obtain ⟨hf, -, he⟩ := entryOf_join hforall hm
    exact he.source ((Settings.kindOf_source_iff_endsIn hf).2 hends)
  case precompiled =>
    intro name outcome hm hends
    obtain ⟨hf, hk, he⟩ := entryOf_join hforall hm
    refine he.precompiled ?_
    cases hkind : i.settings.kindOf (dir.join (Utf8.encode name)) with
    | ignored => exact absurd hkind hk
    | source => exact absurd ((Settings.kindOf_source_iff_endsIn hf).1 hkind) hends
    | precompiled => rfl
  case found =>
    intro name outcome hm
    refine Report.outcome?_of_mem ?_ hm
    exact (List.pairwise_map.1 hpairwise).imp fun hab heq => hab.2 (congrArg _ heq)
  case counted => exact report.counts
  case yielded =>
    intro names hperm
    rw [names_of_entries h, listFiles_of_perm hl hd hperm]

/-- A report accounts for the modules that are found in the directory when the tree has been brought
into shape, and a compiler has been asked once for each source among them, in order. No compiler can
make a difference to which they are. A regular file that stands in the directory is left out only
if the path to it is too long. -/
theorem installAll_accounts (h : i.installAll dir s = .ok report s') :
    ∃ s₁ loc, i.provision s = .ok () s₁ ∧ s₁.files.directoryAt i.here dir = .ok loc ∧
      i.Accounts dir s₁.files loc report ∧
      (∃ runs : List (FileSystem × Path),
        runs.map Prod.snd = (report.entries.map fun e => dir.join (Utf8.encode e.1)).filter
          (i.settings.kindOf · = .source) ∧
        calls s'.events = calls s.events ++ runs.flatMap i.callsOf) ∧
      (∀ compiler report' s'',
        ({ i with compiler } : Installer).installAll dir s = .ok report' s'' →
          report'.entries.map Prod.fst = report.entries.map Prod.fst) ∧
      ∀ n content executable, s₁.files.node? (n :: loc) = some (.file content executable) →
        (s₁.files.isFile i.here (dir.join n) = true ↔
          (dir.join n).bytes.length < Route.maxLength) := by
  obtain ⟨paths, s₁, hp, hl, hr⟩ := installAll_ok_iff.1 h
  have hentries := forall₂_entryOf_of_reaches hr
  obtain ⟨loc, hd⟩ := exists_directoryAt_of_listFiles hl
  refine ⟨s₁, loc, hp, hd, accounts_of_entries hl hd hentries, ?_, ?_, ?_⟩
  · obtain ⟨runs, hruns, hcalls⟩ := calls_handleAll (handleAll_ok_iff.2 hr)
    have hquiet := i.quiet_provision s
    rw [hp] at hquiet
    refine ⟨runs, ?_, hcalls.trans (congrArg (· ++ _) hquiet)⟩
    have hforall := hentries
    rw [filter_listFiles hl hd] at hforall
    have hjoin : (report.entries.map fun e => dir.join (Utf8.encode e.1)) =
        (i.modules dir s₁.files loc).map dir.join := by
      rw [← encode_of_entries hforall, List.map_map, List.map_map]
      rfl
    rw [hruns, List.zipIdx_map_fst, hjoin, ← filter_listFiles hl hd, List.filter_filter]
    refine List.filter_congr fun path _ => ?_
    cases i.settings.kindOf path <;> rfl
  · intro compiler report' s'' h'
    obtain ⟨paths', s₁', hp', hl', hr'⟩ := installAll_ok_iff.1 h'
    obtain rfl : s₁ = s₁' := by
      have hsame := hp.symm.trans hp'
      cases hsame
      rfl
    obtain rfl : paths = paths' := by
      have hsame := hl.symm.trans hl'
      cases hsame
      rfl
    rw [names_of_entries hentries, names_of_entries (forall₂_entryOf_of_reaches hr')]
  · exact fun n content executable hx => isFile_join_iff hd hx

theorem installAll_accounts_mixed :
    ∃ report s' s₁ loc, Sample.writer.installAll (Sample.path "w") Sample.mixed = .ok report s' ∧
      Sample.writer.provision Sample.mixed = .ok () s₁ ∧
      s₁.files.directoryAt [] (Sample.path "w") = .ok loc ∧
      Sample.writer.Accounts (Sample.path "w") s₁.files loc report := by
  obtain ⟨s', hrun⟩ := Sample.installAll_of_runSorted Sample.runSorted_mixed
  obtain ⟨s₁, loc, hp, hd, haccounts, -⟩ := installAll_accounts hrun
  exact ⟨_, s', s₁, loc, hrun, hp, hd, haccounts⟩

/-- The directory of a source, spelled so that it can be found and the source cannot. -/
def atMaxLength : Path := ⟨dotted 2045 (Utf8.encode "w")⟩

theorem directoryAt_atMaxLength :
    Sample.plain.files.directoryAt Sample.writer.here atMaxLength = .ok [Utf8.encode "w"] := by
  have hx : IsRelative (Utf8.encode "w") := ⟨by decide, by decide⟩
  have hw : (Sample.plain.files.directoryAt Sample.writer.here ⟨Utf8.encode "w"⟩).toOption =
      some [Utf8.encode "w"] := by
    decide +kernel
  have hlen : 2 * 2045 + (Utf8.encode "w").length < Route.maxLength := by decide
  rw [atMaxLength, directoryAt_dotted hx hlen]
  exact Sample.eq_ok_of_toOption hw

theorem listFiles_atMaxLength :
    Sample.writer.listFiles atMaxLength Sample.plain = .ok [] Sample.plain := by
  have hnames : Sample.plain.files.names [Utf8.encode "w"] = [Utf8.encode "A.java"] := by
    decide +kernel
  have hlist := list_of_sorted directoryAt_atMaxLength (by rw [hnames]; simp)
  have hlong : Route.maxLength ≤ (atMaxLength.join (Utf8.encode "A.java")).bytes.length := by
    have hx : IsRelative (Utf8.encode "A.java") := ⟨by decide, by decide⟩
    refine Nat.le_trans ?_ (Path.le_length_join hx)
    rw [atMaxLength, length_dotted]
    decide
  rw [listFiles_of_list hlist, hnames]
  simp [isFile_of_long hlong]

/-- A source that stands in the directory goes unmentioned if the path to it is too long. -/
theorem installAll_atMaxLength_omits :
    ∃ loc content executable s',
      Sample.writer.provision Sample.plain = .ok () Sample.plain ∧
      Sample.plain.files.directoryAt Sample.writer.here atMaxLength = .ok loc ∧
      Sample.plain.files.node? (Utf8.encode "A.java" :: loc) = some (.file content executable) ∧
      EndsIn "A.java" Sample.writer.settings.sourceExt ∧
      Sample.writer.installAll atMaxLength Sample.plain = .ok { entries := [] } s' := by
  have hfile : Sample.plain.files.node? [Utf8.encode "A.java", Utf8.encode "w"] =
      some (.file [0x61] false) := by
    decide +kernel
  have hp : Sample.writer.provision Sample.plain = .ok () Sample.plain :=
    provision_of_stands stands_plain
  refine ⟨_, _, _, Sample.plain, hp, directoryAt_atMaxLength, hfile, ?_, ?_⟩
  · exact ⟨Utf8.encode "A", Utf8.encode "java", by decide, by decide, by decide⟩
  · rw [run_installAll hp listFiles_atMaxLength]
    rfl

end Installer

end ModuleInstall
