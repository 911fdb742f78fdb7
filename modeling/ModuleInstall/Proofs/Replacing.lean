import ModuleInstall.Proofs.Provision
import ModuleInstall.Proofs.Sample

/-! # Making sure of one directory -/

namespace ModuleInstall

open FileSystem ModuleInstall.Action

variable {here dir : Location} {p : Path} {n : Name} {s s' t : Session} {e : ProvisionError}
  {u : Unit} {fs fs' : FileSystem}

/-! ## A failure -/

theorem files_of_change_error {call : FileSystem → Except SystemError FileSystem}
    {onError : SystemError → ProvisionError} {record : Record}
    (h : (do print record; change call onError : Action ProvisionError Unit) s = .error e s') :
    s'.files = s.files ∧ ∃ cause, call s.files = .error cause ∧ e = onError cause := by
  rw [run_bind_of_ok (run_print _ _)] at h
  obtain ⟨cause, hc, he, rfl⟩ := change_eq_error_iff.1 h
  exact ⟨rfl, cause, hc, he⟩

theorem clear_make_error (hdir : ∀ fixed, s.files.stat here p ≠ .ok (.directory fixed))
    (hlinks : s.files.stat here p ≠ .error (.code .tooManyLinks))
    (h : (do clearTheWay here p; makeLevel here p : Action ProvisionError Unit) s = .error e s') :
    s'.files = s.files ∧ e.path = p := by
  rcases bind_eq_error_iff.1 h with h | ⟨_, s₁, hclear, hmake⟩
  · obtain ⟨hfiles, cause, -, rfl⟩ := files_of_change_error h
    exact ⟨hfiles, rfl⟩
  · obtain ⟨dir, n, hcleared⟩ := cleared_of_remove hdir hlinks (clearTheWay_ok hclear)
    obtain ⟨-, cause, hc, -⟩ := files_of_change_error hmake
    rw [hcleared.makeDirectory] at hc
    cases hc

theorem ensureDirectory_error (h : ensureDirectory here p s = .error e s') :
    s'.files = s.files ∧ e.path = p := by
  rw [run_ensureDirectory] at h
  split at h
  · cases h
  · rename_i node hnd hst
    refine clear_make_error (fun fixed hf => ?_) (by simp [hst]) h
    rw [hst] at hf
    cases hf
    exact hnd fixed rfl
  · rename_i hst
    split at h
    · exact clear_make_error (by simp [hst]) (by simp [hst]) h
    · obtain ⟨hfiles, cause, -, rfl⟩ := files_of_change_error h
      exact ⟨hfiles, rfl⟩
  · cases h
    exact ⟨rfl, rfl⟩

/-! ## A success -/

/-- The second file system has a directory at the path, and differs from the first at most in the
entry that the path names. -/
structure Ensured (here : Location) (p : Path) (fs fs' : FileSystem) : Prop where
  directory : ∃ fixed, fs'.stat here p = .ok (.directory fixed)
  kept : (∃ fixed, fs.stat here p = .ok (.directory fixed)) → fs' = fs
  replaced : (∀ fixed, fs.stat here p ≠ .ok (.directory fixed)) →
    ∃ spot, fs.Names here p spot ∧ fs'.Names here p spot ∧ ¬ fs.IsDirectory spot ∧
      fs'.node? spot = some (.directory false) ∧ ∀ l, l ≠ spot → fs'.node? l = fs.node? l
  /-- A link gives way to the directory, and the file that it leads to stays. -/
  target : ∀ spot target loc content x, fs.Names here p spot →
    fs.node? spot = some (.link target) →
    fs.find .followed here p = .ok (loc, .file content x) → fs'.node? loc = some (.file content x)

theorem ensured_of_ok (h : ensureDirectory here p s = .ok u s') :
    Ensured here p s.files s'.files where
  directory := isDirectory_of_ensureDirectory h
  kept := by
    rintro ⟨fixed, hd⟩
    rw [ensureDirectory_of_directory hd] at h
    cases h
    rfl
  replaced hnot := by
    rcases ensureDirectory_ok h with ⟨-, fixed, hd⟩ | ⟨spot, hnames, hl⟩
    · exact absurd hd (hnot fixed)
    · exact ⟨spot, hnames, hnames.of_levelled hl, hl.was, hl.now, hl.others⟩
  target spot target loc content x hnames hlink hfind := by
    obtain ⟨place, -, rfl, hn⟩ := find_eq_ok_iff.1 hfind
    have hx := (nodeAt_eq_ok_iff.1 hn).1
    rcases ensureDirectory_ok h with ⟨hf, -⟩ | ⟨spot', hnames', hl⟩
    · rw [hf, hx]
    · obtain rfl := hnames.unique hnames'
      rw [hl.others _ ?_, hx]
      rintro he
      rw [he, hlink] at hx
      cases hx

/-- Making sure of a directory is all or nothing. A failure leaves every file as it was. After a
success the path is a directory, at most the entry that it names has changed, and there is nothing
left to be done. -/
theorem ensureDirectory_atomic (here : Location) (p : Path) (s : Session) :
    (∀ e s', ensureDirectory here p s = .error e s' → s'.files = s.files) ∧
      ∀ s', ensureDirectory here p s = .ok () s' →
        Ensured here p s.files s'.files ∧
        ∀ t : Session, t.files = s'.files → ensureDirectory here p t = .ok () t := by
  refine ⟨fun e s' h => (ensureDirectory_error h).1, fun s' h => ⟨ensured_of_ok h, fun t ht => ?_⟩⟩
  obtain ⟨fixed, hd⟩ := isDirectory_of_ensureDirectory h
  exact ensureDirectory_of_directory (ht ▸ hd)

theorem ensureDirectory_atomic_stray :
    (∃ s', ensureDirectory [] (Sample.path "jil") Sample.stray = .ok () s' ∧
      Ensured [] (Sample.path "jil") Sample.stray.files s'.files ∧
      s'.files.node? [Utf8.encode "f"] = some (.file [0x66] false) ∧
      ensureDirectory [] (Sample.path "jil") s' = .ok () s') ∧
    ∃ e s', ensureDirectory [] (Sample.path "gone/") Sample.stray = .error e s' ∧
      s'.files = Sample.stray.files := by
  have hok : value? (ensureDirectory [] (Sample.path "jil") Sample.stray) = some () := by
    decide +kernel
  have hlink : Sample.stray.files.node? [Utf8.encode "jil"] = some (.link (Utf8.encode "f")) := by
    decide +kernel
  have hnames : Sample.stray.files.Names [] (Sample.path "jil") [Utf8.encode "jil"] :=
    ⟨[], _, false, Sample.eq_ok_of_toOption (by decide +kernel), rfl⟩
  have hfile : Sample.stray.files.find .followed [] (Sample.path "jil") =
      .ok ([Utf8.encode "f"], .file [0x66] false) := Sample.eq_ok_of_toOption (by decide +kernel)
  have hstuck : (value? (ensureDirectory [] (Sample.path "gone/") Sample.stray)).isSome =
      false := by decide +kernel
  refine ⟨⟨_, value?_eq_some_iff.1 hok, ?_⟩, ?_⟩
  · obtain ⟨hensured, hagain⟩ := (ensureDirectory_atomic [] _ _).2 _ (value?_eq_some_iff.1 hok)
    exact ⟨hensured, hensured.target _ _ _ _ _ hnames hlink hfile, hagain _ rfl⟩
  · cases h : ensureDirectory [] (Sample.path "gone/") Sample.stray with
    | ok u s' => simp [h, value?] at hstuck
    | error e s' => exact ⟨e, s', rfl, (ensureDirectory_atomic [] _ _).1 e s' h⟩

/-! ## A name in an ordinary directory -/

namespace FileSystem

/-- The path is a name behind a path to a directory that takes new entries, and is not too long. -/
structure NamedIn (fs : FileSystem) (here : Location) (p : Path) (dir : Location) (n : Name) :
    Prop where
  ends : ∃ base : Path, p = base.join n ∧ fs.Behind here base dir
  proper : n.Proper
  short : p.bytes.length < Route.maxLength
  ordinary : fs.node? dir = some (.directory false)

namespace NamedIn

theorem walk_kept (h : fs.NamedIn here p dir n) :
    fs.walk .kept here p = .ok (.entry dir n false) := by
  obtain ⟨base, rfl, hb⟩ := h.ends
  exact walk_kept_join hb h.proper h.short

theorem isFixed_eq (h : fs.NamedIn here p dir n) : fs.isFixed dir = false := by
  simp [isFixed, h.ordinary]

theorem entryStat_eq (h : fs.NamedIn here p dir n) :
    fs.entryStat here p = fs.nodeAt (.entry dir n false) :=
  map_find_of_walk (walk_of_unslashed h.walk_kept rfl rfl)

theorem stat_eq (h : fs.NamedIn here p dir n)
    (hl : ∀ target, fs.node? (n :: dir) ≠ some (.link target)) :
    fs.stat here p = fs.nodeAt (.entry dir n false) :=
  map_find_of_walk ((walk_of_kept h.walk_kept (by rfl)).2 hl)

theorem admits (h : fs.NamedIn here p dir n) (hx : fs.node? (n :: dir) = none) : fs.Admits dir n :=
  ⟨h.proper, hasDirectory_iff.2 ⟨false, h.ordinary⟩, hx⟩

theorem remove (h : fs.NamedIn here p dir n) (hx : fs.node? (n :: dir) ≠ none)
    (hdir : ∀ fixed, fs.stat here p ≠ .ok (.directory fixed)) :
    ∃ fs', fs.remove here p = .ok fs' := by
  obtain ⟨node, hx⟩ := Option.ne_none_iff_exists'.1 hx
  refine ⟨_, remove_of_not_directory h.walk_kept hx ?_ h.isFixed_eq⟩
  cases node with
  | directory fixed =>
    have hd := h.stat_eq (by simp [hx])
    rw [nodeAt_entry, hx] at hd
    exact absurd hd (hdir fixed)
  | file | link | fifo => rfl

theorem exists_link {cause : SystemError} (h : fs.NamedIn here p dir n)
    (hst : fs.stat here p = .error cause) (hne : cause ≠ .code .noEntry) :
    ∃ target, fs.node? (n :: dir) = some (.link target) := by
  have hat := fun hl => (h.stat_eq hl).symm.trans hst
  rw [nodeAt_entry] at hat
  rcases hx : fs.node? (n :: dir) with _ | ⟨_ | _ | target | _⟩ <;> simp_all

end NamedIn

end FileSystem

theorem exists_clear_make (hdir : ∀ fixed, s.files.stat here p ≠ .ok (.directory fixed))
    (hlinks : s.files.stat here p ≠ .error (.code .tooManyLinks))
    (h : s.files.remove here p = .ok fs) :
    ∃ s', (do clearTheWay here p; makeLevel here p : Action ProvisionError Unit) s = .ok () s' := by
  obtain ⟨s₁, hclear, rfl⟩ := clearTheWay_of_remove h
  obtain ⟨dir, n, hcleared⟩ := cleared_of_remove hdir hlinks h
  obtain ⟨s', hmake, -⟩ := makeLevel_of_makeDirectory hcleared.makeDirectory
  exact ⟨s', (run_bind_of_ok hclear).trans hmake⟩

theorem exists_ensureDirectory (h : s.files.NamedIn here p dir n)
    (hst : ∀ cause, s.files.stat here p = .error cause → cause = .code .noEntry) :
    ∃ s', ensureDirectory here p s = .ok () s' := by
  have hlinks : s.files.stat here p ≠ .error (.code .tooManyLinks) := fun hmany => by
    cases hst _ hmany
  rw [run_ensureDirectory]
  split
  · exact ⟨s, rfl⟩
  · rename_i node hnd hnode
    have hdir : ∀ fixed, s.files.stat here p ≠ .ok (.directory fixed) := by
      intro fixed hd
      rw [hnode] at hd
      cases hd
      exact hnd fixed rfl
    have hx : s.files.node? (n :: dir) ≠ none := by
      intro hnone
      rw [h.stat_eq (by simp [hnone]), nodeAt_entry, hnone] at hnode
      cases hnode
    obtain ⟨fs, hr⟩ := h.remove hx hdir
    exact exists_clear_make hdir hlinks hr
  · rename_i hnone
    have hdir : ∀ fixed, s.files.stat here p ≠ .ok (.directory fixed) := by simp [hnone]
    rw [h.entryStat_eq, nodeAt_entry]
    cases hx : s.files.node? (n :: dir) with
    | some node =>
      obtain ⟨fs, hr⟩ := h.remove (by simp [hx]) hdir
      exact exists_clear_make hdir hlinks hr
    | none =>
      obtain ⟨s', hmake, -⟩ := makeLevel_of_makeDirectory
        (makeDirectory_of_admits h.walk_kept (h.admits hx) h.isFixed_eq)
      exact ⟨s', hmake⟩
  · rename_i cause hne hcause
    cases hst _ hcause
    exact absurd rfl hne

theorem names_of_levelled {spot : Location} (hl : Levelled spot fs fs') : fs'.names spot = [] := by
  refine List.eq_nil_iff_forall_not_mem.2 fun m hm => ?_
  obtain ⟨node, hx⟩ := mem_names_iff.1 hm
  rw [hl.others _ (List.cons_ne_self m spot)] at hx
  exact hl.was (isDirectory_parent hx)

theorem fresh_of_ensureDirectory (h : s.files.NamedIn here p dir n)
    (hdir : ∀ fixed, s.files.stat here p ≠ .ok (.directory fixed))
    (hok : ensureDirectory here p s = .ok u s') :
    s'.files.entryStat here p = .ok (.directory false) ∧ s'.files.list here p = .ok [] := by
  rcases ensureDirectory_ok hok with ⟨-, fixed, hd⟩ | ⟨spot, hnames, hl⟩
  · exact absurd hd (hdir fixed)
  obtain rfl := hnames.unique ⟨dir, n, false, h.walk_kept, rfl⟩
  have hw := walk_kept_of_astray hl.was hl.astray hl.others h.walk_kept
  have hat : s'.files.walk .followedAtSlash here p = _ := walk_of_unslashed hw rfl rfl
  have hd : s'.files.directoryAt here p = .ok (n :: dir) :=
    directoryAt_eq_ok_iff.2 ⟨_, (walk_of_kept hw (by rfl)).2 (by simp [hl.now]), rfl, false, hl.now⟩
  refine ⟨?_, list_eq_ok_iff.2 ⟨_, hd, by simp [names_of_levelled hl]⟩⟩
  rw [entryStat, map_find_of_walk hat]
  exact nodeAt_eq_ok_iff.2 ⟨hl.now, fun _ _ _ => rfl⟩

theorem ensureDirectory_of_stat_error {cause : SystemError}
    (h : s.files.stat here p = .error cause) (hne : cause ≠ .code .noEntry) :
    ensureDirectory here p s = .error (.create p cause) s := by
  rw [run_ensureDirectory, h]
  split <;> simp_all

/-- A name in an ordinary directory is made a directory, unless it is a link whose way ends in a
loop, at something that is no directory, or at a name that is too long. Such a link stays. -/
theorem ensureDirectory_replaces (h : s.files.NamedIn here p dir n) :
    ((∃ s', ensureDirectory here p s = .ok () s') ↔
      ∀ cause, s.files.stat here p = .error cause → cause = .code .noEntry) ∧
    (∀ s', ensureDirectory here p s = .ok () s' →
      (∃ fixed, s'.files.stat here p = .ok (.directory fixed)) ∧
      ((∀ fixed, s.files.stat here p ≠ .ok (.directory fixed)) →
        s'.files.entryStat here p = .ok (.directory false) ∧ s'.files.list here p = .ok [])) ∧
    ∀ cause, s.files.stat here p = .error cause → cause ≠ .code .noEntry →
      ensureDirectory here p s = .error (.create p cause) s ∧
      (∃ target, s.files.node? (n :: dir) = some (.link target)) ∧
      ∃ errno ∈ [Errno.tooManyLinks, .notDirectory, .nameTooLong], cause = .code errno := by
  refine ⟨⟨?_, exists_ensureDirectory h⟩, fun s' hok => ?_, fun cause hst hne => ?_⟩
  · rintro ⟨s', hok⟩ cause hst
    refine Decidable.byContradiction fun hne => ?_
    rw [ensureDirectory_of_stat_error hst hne] at hok
    cases hok
  · exact ⟨isDirectory_of_ensureDirectory hok, fun hdir => fresh_of_ensureDirectory h hdir hok⟩
  · refine ⟨ensureDirectory_of_stat_error hst hne, h.exists_link hst hne, ?_⟩
    obtain ⟨route, hr, -⟩ := walk_eq_ok_iff.1 h.walk_kept
    obtain ⟨errno, hmem, rfl⟩ := (stat_error hst).resolve_left (by simp [hr])
    refine ⟨errno, ?_, rfl⟩
    simp only [walkErrors, List.mem_cons] at hmem
    grind

theorem ensureDirectory_replaces_gone :
    Sample.stray.files.NamedIn [] (Sample.path "gone") [] (Utf8.encode "gone") ∧
      ∃ s', ensureDirectory [] (Sample.path "gone") Sample.stray = .ok () s' ∧
        s'.files.entryStat [] (Sample.path "gone") = .ok (.directory false) ∧
        s'.files.list [] (Sample.path "gone") = .ok [] := by
  have hnamed : Sample.stray.files.NamedIn [] (Sample.path "gone") [] (Utf8.encode "gone") :=
    ⟨⟨⟨[]⟩, by decide, Or.inl ⟨rfl, rfl⟩⟩, by decide, by decide, rfl⟩
  have hst : Sample.stray.files.stat [] (Sample.path "gone") = .error (.code .noEntry) :=
    Sample.eq_error_of_error? (by decide +kernel)
  obtain ⟨hiff, hfresh, -⟩ := ensureDirectory_replaces hnamed
  obtain ⟨s', hok⟩ := hiff.2 fun cause hc => by
    rw [hst] at hc
    cases hc
    rfl
  exact ⟨hnamed, s', hok, (hfresh s' hok).2 (by simp [hst])⟩

/-- A link that leads to itself is not. -/
theorem ensureDirectory_stuck_at_loop :
    Sample.stray.files.NamedIn [] (Sample.path "loop") [] (Utf8.encode "loop") ∧
      ensureDirectory [] (Sample.path "loop") Sample.stray =
        .error (.create (Sample.path "loop") (.code .tooManyLinks)) Sample.stray := by
  have hst : Sample.stray.files.stat [] (Sample.path "loop") = .error (.code .tooManyLinks) :=
    Sample.eq_error_of_error? (by decide +kernel)
  exact ⟨⟨⟨⟨[]⟩, by decide, Or.inl ⟨rfl, rfl⟩⟩, by decide, by decide, rfl⟩,
    ensureDirectory_of_stat_error hst (by decide)⟩

end ModuleInstall
