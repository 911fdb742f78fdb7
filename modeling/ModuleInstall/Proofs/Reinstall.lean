import ModuleInstall.Proofs.Alike
import ModuleInstall.Proofs.Levels
import ModuleInstall.Proofs.Room
import ModuleInstall.Proofs.Sample
import ModuleInstall.Proofs.Sorting
import ModuleInstall.Proofs.Refinement.TwoMaps

/-! # Installing again -/

namespace ModuleInstall

open FileSystem ModuleInstall.Action

/-! ## The tree again -/

section Again

variable {here : Location} {levels : List Path} {q : Path} {s t : Session}

theorem directory_of_ensureAll (hq : ∃ fixed, s.files.stat here q = .ok (.directory fixed)) :
    ∃ fixed, (resultAndFiles (ensureAll here levels s)).2.stat here q = .ok (.directory fixed) := by
  cases h : ensureAll here levels s with
  | ok u s' => exact (ensureAll_ok h).isDirectory hq
  | error e s' =>
    obtain ⟨done, rest, -, hdone⟩ := ensureAll_error h
    exact hdone.isDirectory hq

theorem resultAndFiles_ensureAll_again (ht : t.files = (resultAndFiles (ensureAll here levels s)).2) :
    resultAndFiles (ensureAll here levels t) = resultAndFiles (ensureAll here levels s) := by
  induction levels generalizing s with
  | nil => exact IgnoresEvents.pure _ _ _ ht
  | cons level levels ih =>
    rw [ensureAll_cons] at ht ⊢
    cases h : ensureDirectory here level s with
    | error e s₁ =>
      rw [run_bind_of_error h, resultAndFiles] at ht ⊢
      have hsame := ignoresEvents_ensureDirectory here level t s
        (ht.trans (ensureDirectory_error h).1)
      rw [h] at hsame
      obtain ⟨t₁, hrun, hfiles⟩ := resultAndFiles_eq_error_iff.1 hsame
      rw [run_bind_of_error hrun, resultAndFiles, hfiles]
    | ok u s₁ =>
      rw [run_bind_of_ok h] at ht ⊢
      obtain ⟨fixed, hd⟩ := directory_of_ensureAll (isDirectory_of_ensureDirectory h)
      rw [← ht] at hd
      rw [run_bind_of_ok (ensureDirectory_of_directory hd)]
      exact ih ht

end Again

/-! ## Compilers that go by the source -/

/-- What a compiler does to be true to its answer. It fails if the artifact cannot be written. -/
def Answer.carryOut (answer : Answer) (hindered : SystemError → CompileError) (here : Location)
    (artifact : Path) (fs : FileSystem) : Except CompileError Artifact × FileSystem :=
  match answer with
  | .refuses e => (.error e, fs)
  | .makes notes content =>
    match fs.write here artifact content with
    | .error cause => (.error (hindered cause), fs)
    | .ok files => (.ok { path := artifact, notes }, files)

namespace Installer

/-- The answer of the compiler depends on the path and the content of a source alone. -/
def Steady (i : Installer) : Prop :=
  ∃ (answer : Path → Bytes → Answer) (hindered : Path → Bytes → SystemError → CompileError),
    ∀ fs source content artifact, i.settings.kindOf source = .source →
      i.settings.artifactPath source = .ok artifact → fs.read i.here source = .ok content →
      ∃ files, ((i.compiler fs source).result, files) =
          (answer source content).carryOut (hindered source content) i.here artifact fs ∧
        ∀ l, (i.compiler fs source).files.node? l = files.node? l

variable {i : Installer} {dir p : Path} {fs₀ fs : FileSystem} {D S d : Location} {n : Name}
  {content : Bytes} {s t : Session}

/-! ## One turn -/

theorem resultAndFiles_compile (i : Installer) (source : Path) (s : Session) :
    resultAndFiles (i.compile source s) = ((i.compiler s.files source).result.mapError .compile,
      (i.compiler s.files source).files) := by
  rw [run_compile]
  cases hr : (i.compiler s.files source).result <;> rfl

/-- The location is that of a module in the directory. -/
def IsModule (i : Installer) (dir : Path) (D l : Location) : Prop :=
  ∃ n, l = n :: D ∧ i.settings.kindOf (dir.join n) ≠ .ignored

/-- What installing again asks of an installation whose tree has been brought into shape. -/
structure Site (i : Installer) (dir : Path) (fs₀ : FileSystem) (D S : Location) : Prop where
  linkless : fs₀.Linkless
  dirAt : fs₀.directoryAt i.here dir = .ok D
  stdAt : fs₀.directoryAt i.here i.settings.tree.std = .ok S
  tellsApart : i.settings.TellsApart
  steady : i.Steady
  roomy : i.room = .ample

namespace Site

variable (g : Site i dir fs₀ D S)
include g

theorem settled_copyModule (content : Bytes) (hn : IsPiece n) (hf : p.fileName? = some n)
    (hl : fs₀.Leads i.here p d n) (hk : S = d ∨ ¬ i.IsModule dir D (n :: S)) :
    Settled (Holding (i.IsModule dir D) fs₀ (n :: d) content) (i.copyModule p) := by
  have hread : ∀ fs, Holding (i.IsModule dir D) fs₀ (n :: d) content fs →
      fs.read i.here p = .ok content :=
    fun fs h => read_of_leads ((h.alike.same g.linkless).leads hl) h.content
  rcases write_alike (i.IsModule dir D) g.linkless g.stdAt hn with ⟨e, he⟩ | ⟨ho, hdest⟩
  · refine ⟨.error (.file .write (i.settings.tree.modulePath n) e), .none, fun t ht => ?_⟩
    have hw : t.files.write i.here (i.settings.tree.modulePath n) content = .error e :=
      he t.files content ht.alike
    rw [copyModule_of_write_error hf (hread _ ht) hw]
    exact ⟨t.files, rfl, Revision.make_none _, ht⟩
  · refine ⟨.ok (i.settings.tree.modulePath n), .only (n :: S) (.fill content), fun t ht => ?_⟩
    obtain ⟨fs, hw, hm⟩ :=
      (ht.alike.isOpen_iff.2 ho).write ((ht.alike.same g.linkless).leads hdest _) content
    have hw : t.files.write i.here (i.settings.tree.modulePath n) content = .ok fs := hw
    rw [copyModule_of_write hf (hread _ ht) (by rw [g.roomy, taken_ample]) hw]
    exact ⟨fs, rfl, hm, ht.fill ho (hk.imp_left (congrArg (n :: ·))) hm⟩

theorem uniform_remove {onError : SystemError → InstallError} (ho : fs₀.Open d n)
    (hl : fs₀.Leads i.here p d n) (hk : ¬ i.IsModule dir D (n :: d)) :
    Uniform (Holding (i.IsModule dir D) fs₀ (n :: d) content) (change (·.remove i.here p) onError)
      (.ok ()) (.only (n :: d) (.put none)) (Alike (i.IsModule dir D) fs₀) := by
  intro t ht
  obtain ⟨x, hx⟩ := content?_eq_some_iff.1 ht.content
  obtain ⟨fs, hr, hm⟩ :=
    (ht.alike.isOpen_iff.2 ho).remove ((ht.alike.same g.linkless).leads hl _) hx
  refine ⟨fs, ?_, hm, ht.alike.takeAway hk ho hm⟩
  rw [change_eq_ok_iff.2 ⟨fs, hr, rfl⟩, resultAndFiles]

theorem exists_uniform_moveArtifact {artifact : Artifact} (content : Bytes) (hn : IsPiece n)
    (hf : artifact.path.fileName? = some n) (ho : fs₀.Open D n)
    (hl : fs₀.Leads i.here artifact.path D n) (hk : i.settings.kindOf (dir.join n) = .ignored) :
    ∃ r μ, Uniform (Holding (i.IsModule dir D) fs₀ (n :: D) content) (i.moveArtifact artifact) r μ
      (Alike (i.IsModule dir D) fs₀) := by
  have hnot : ∀ l, ¬ i.IsModule dir D (n :: l) := by
    rintro l ⟨m, hm, hkind⟩
    cases hm
    exact hkind hk
  obtain ⟨r, μ, hcopy⟩ := g.settled_copyModule content hn hf hl (Or.inr (hnot S))
  cases r with
  | error e => exact ⟨.error e, μ, (hcopy.mono (fun _ h => h) fun _ h => h.alike).bind_of_error⟩
  | ok dest =>
    exact ⟨.ok dest, _, hcopy.bind ((g.uniform_remove ho hl (hnot D)).bind (.pure dest))⟩

theorem read_of_module (hk : i.settings.kindOf (dir.join n) ≠ .ignored)
    (hl : fs₀.Leads i.here (dir.join n) D n) (hc : fs₀.content? (n :: D) = some content)
    (h : Alike (i.IsModule dir D) fs₀ fs) : Holding (i.IsModule dir D) fs₀ (n :: D) content fs ∧
      fs.read i.here (dir.join n) = .ok content := by
  have hc' : fs.content? (n :: D) = some content :=
    (content?_of_node?_eq (h.node?_of_kept ⟨n, rfl, hk⟩)).trans hc
  exact ⟨⟨h, hc'⟩, read_of_leads ((h.same g.linkless).leads hl) hc'⟩

theorem uniform_compile (hn : IsPiece n) (hk : i.settings.kindOf (dir.join n) = .source)
    (hl : fs₀.Leads i.here (dir.join n) D n) (hc : fs₀.content? (n :: D) = some content) :
    (∃ e, Uniform (Alike (i.IsModule dir D) fs₀) (i.compile (dir.join n)) (.error e) .none
        (Alike (i.IsModule dir D) fs₀)) ∨
      ∃ artifact a bytes μ, IsPiece a ∧ artifact.path.fileName? = some a ∧ fs₀.Open D a ∧
        fs₀.Leads i.here artifact.path D a ∧ i.settings.kindOf (dir.join a) = .ignored ∧
        Uniform (Alike (i.IsModule dir D) fs₀) (i.compile (dir.join n)) (.ok artifact) μ
          (Holding (i.IsModule dir D) fs₀ (a :: D) bytes) := by
  obtain ⟨answer, hindered, hsteady⟩ := g.steady
  have ha := Settings.isPiece_artifactName g.tellsApart hn hk
  have hignored := Settings.kindOf_artifactName g.tellsApart hn hk
  obtain ⟨-, -, -, -, -, hpath⟩ := Settings.exists_stem_of_source hn hk
  obtain ⟨up, hparent, -, hup⟩ := exists_parent_join g.linkless g.dirAt hn
  rw [Path.withFileName_join hn hparent] at hpath
  generalize i.settings.artifactName n = a at ha hignored hpath
  have hrun : ∀ t : Session, Alike (i.IsModule dir D) fs₀ t.files → ∃ files out,
      resultAndFiles (i.compile (dir.join n) t) = (out.1.mapError .compile, files) ∧
        (answer (dir.join n) content).carryOut (hindered (dir.join n) content) i.here (up.join a)
          t.files = out ∧ ∀ l, files.node? l = out.2.node? l := by
    intro t ht
    have hread := (g.read_of_module (by simp [hk]) hl hc ht).2
    obtain ⟨files, hout, hsame⟩ := hsteady t.files _ content _ hk hpath hread
    exact ⟨_, _, resultAndFiles_compile i _ t, hout.symm, hsame⟩
  cases hanswer : answer (dir.join n) content with
  | refuses e =>
    refine Or.inl ⟨.compile e, fun t ht => ?_⟩
    obtain ⟨files, out, hup, hout, hsame⟩ := hrun t ht
    rw [hanswer, Answer.carryOut] at hout
    subst hout
    exact ⟨files, hup, hsame, ht.congr hsame⟩
  | makes notes bytes =>
    simp only [hanswer, Answer.carryOut] at hrun
    rcases write_alike (i.IsModule dir D) g.linkless hup ha with ⟨cause, he⟩ | ⟨ho, hla⟩
    · refine Or.inl ⟨.compile (hindered (dir.join n) content cause), fun t ht => ?_⟩
      obtain ⟨files, out, hup, hout, hsame⟩ := hrun t ht
      rw [he t.files bytes ht] at hout
      subst hout
      exact ⟨files, hup, hsame, ht.congr hsame⟩
    · refine Or.inr ⟨{ path := up.join a, notes }, a, bytes, .only (a :: D) (.fill bytes), ha,
        Path.fileName?_join up ha, ho, hla, hignored, fun t ht => ?_⟩
      obtain ⟨files, out, hup, hout, hsame⟩ := hrun t ht
      obtain ⟨fs, hw, hm⟩ := (ht.isOpen_iff.2 ho).write ((ht.same g.linkless).leads hla _) bytes
      rw [hw] at hout
      subst hout
      have hm : (Revision.only (a :: D) (.fill bytes)).Make t.files files :=
        fun l => (hsame l).trans (hm l)
      refine ⟨files, hup, hm, ht.fill ?_ ho hm⟩
      rintro ⟨m, he, hkind⟩
      cases he
      exact hkind hignored

theorem settled_compileAndMove (hn : IsPiece n) (hk : i.settings.kindOf (dir.join n) = .source)
    (hl : fs₀.Leads i.here (dir.join n) D n) (hc : fs₀.content? (n :: D) = some content) :
    Settled (Alike (i.IsModule dir D) fs₀) (i.compileAndMove (dir.join n)) := by
  rcases g.uniform_compile hn hk hl hc with
    ⟨e, hcompile⟩ | ⟨artifact, a, bytes, μ, ha, hf, ho, hla, hignored, hcompile⟩
  · exact ⟨.error e, .none, hcompile.bind_of_error⟩
  · obtain ⟨r, ν, hmove⟩ := g.exists_uniform_moveArtifact bytes ha hf ho hla hignored
    cases r with
    | error e => exact ⟨.error e, _, hcompile.bind hmove.bind_of_error⟩
    | ok dest => exact ⟨.ok (artifact, dest), _, hcompile.bind (hmove.bind (.pure _))⟩

theorem settled_installFile (hn : n ∈ i.modules dir fs₀ D) :
    Settled (Alike (i.IsModule dir D) fs₀) (i.installFile (dir.join n)) := by
  have hpiece := isPiece_of_mem_modules hn
  obtain ⟨-, hfile, hk⟩ := mem_modules_iff.1 hn
  obtain ⟨content, hl, hc⟩ := exists_content_of_isFile g.linkless g.dirAt hpiece hfile
  unfold installFile
  cases hkind : i.settings.kindOf (dir.join n) with
  | ignored => exact absurd hkind hk
  | precompiled =>
    have hdest : S = D ∨ ¬ i.IsModule dir D (n :: S) := by
      refine or_iff_not_imp_left.2 fun hne => ?_
      rintro ⟨m, he, -⟩
      exact hne (List.cons.inj he).2
    obtain ⟨r, μ, hcopy⟩ :=
      g.settled_copyModule content hpiece (Path.fileName?_join dir hpiece) hl hdest
    refine Settled.bind ⟨r, μ, hcopy.mono ?_ fun _ h => h.alike⟩ fun dest => .pure _
    exact fun fs h => (g.read_of_module hk hl hc h).1
  | source =>
    refine .bind (.attempt (g.settled_compileAndMove hpiece hkind hl hc)) fun r => ?_
    cases r with
    | ok built => exact .pure _
    | error e => exact .pure _

theorem settled_installEach {names : List Name} (h : ∀ n ∈ names, n ∈ i.modules dir fs₀ D) :
    Settled (Alike (i.IsModule dir D) fs₀) (i.installEach (names.map dir.join)) := by
  induction names with
  | nil => exact .pure _
  | cons n names ih =>
    rw [List.forall_mem_cons] at h
    exact .bind (g.settled_installFile h.1) fun outcome => .bind (ih h.2) fun entries => .pure _

/-! ## A run -/

theorem modules_eq (h : Alike (i.IsModule dir D) fs₀ fs) :
    i.modules dir fs D = i.modules dir fs₀ D := by
  refine List.Perm.eq_of_pairwise (fun _ _ _ _ => Bytes.le_antisymm)
    ((i.pairwise_modules dir fs D).imp And.left) ((i.pairwise_modules dir fs₀ D).imp And.left) ?_
  refine (List.perm_ext_iff_of_nodup ((i.pairwise_modules dir fs D).imp And.right)
    ((i.pairwise_modules dir fs₀ D).imp And.right)).2 fun n => ?_
  rw [mem_modules_iff, mem_modules_iff, mem_names_iff, mem_names_iff]
  by_cases hk : i.settings.kindOf (dir.join n) = .ignored
  · simp [hk]
  have hx := h.node?_of_kept ⟨n, rfl, hk⟩
  rw [hx]
  refine and_congr_right fun ⟨node, hn⟩ => and_congr_left fun _ => ?_
  rw [h.isFile_join g.linkless g.dirAt (proper_of_node? hn).isPiece hx]

theorem stands (h : Alike (i.IsModule dir D) fs₀ fs)
    (hs : i.settings.tree.Stands i.here fs₀) : i.settings.tree.Stands i.here fs := by
  intro level hl
  obtain ⟨fixed, hd⟩ := hs level hl
  obtain ⟨place, hw, hx⟩ := stat_directory_iff.1 hd
  have hw' := (h.same g.linkless).walk hw
  exact ⟨fixed, stat_directory_iff.2 ⟨place, hw', h.node?_directory_iff.2 hx⟩⟩

end Site

theorem resultAndFiles_provision (i : Installer) (s : Session) :
    resultAndFiles (i.provision s) =
      ((resultAndFiles (ensureAll i.here i.settings.tree.levels s)).1.mapError .provision,
        (resultAndFiles (ensureAll i.here i.settings.tree.levels s)).2) := by
  unfold provision orFail
  rw [Tree.provision_eq_ensureAll]
  cases ensureAll i.here i.settings.tree.levels s <;> rfl

theorem resultAndFiles_provision_again (ht : t.files = (resultAndFiles (i.provision s)).2) :
    resultAndFiles (i.provision t) = resultAndFiles (i.provision s) := by
  rw [resultAndFiles_provision] at ht
  rw [resultAndFiles_provision, resultAndFiles_provision, resultAndFiles_ensureAll_again ht]

theorem resultAndFiles_installAll_of_provision_error {s₁ : Session} {e : InstallError}
    (hp : i.provision s = .error e s₁) :
    resultAndFiles (i.installAll dir s) = (.error e, s₁.files) := by
  unfold installAll
  rw [run_bind_of_error hp, resultAndFiles]

theorem resultAndFiles_installAll_of_list_error {s₁ : Session} {cause : SystemError}
    (hp : i.provision s = .ok () s₁) (hl : s₁.files.list i.here dir = .error cause) :
    resultAndFiles (i.installAll dir s) = (.error (.file .list dir cause), s₁.files) := by
  unfold installAll
  rw [run_bind_of_ok hp, run_bind_of_error (listFiles_error_iff.2 ⟨cause, hl, rfl, rfl⟩),
    resultAndFiles]

/-- Where there are no links, and with a steady compiler, a second run ends as the first one did and
changes nothing. -/
theorem resultAndFiles_installAll_again (dir : Path) (hs : s.files.Linkless)
    (ht : i.settings.TellsApart) (hc : i.Steady) (hroom : i.room = .ample)
    (hfiles : t.files = (resultAndFiles (i.installAll dir s)).2) :
    ∃ files, resultAndFiles (i.installAll dir t) = ((resultAndFiles (i.installAll dir s)).1, files) ∧
      ∀ l, files.node? l = t.files.node? l := by
  cases hp : i.provision s with
  | error e s₁ =>
    rw [resultAndFiles_installAll_of_provision_error hp] at hfiles ⊢
    have hagain := resultAndFiles_provision_again (t := t) (by rw [hp]; exact hfiles)
    rw [hp] at hagain
    obtain ⟨t₁, hp', hfiles'⟩ := resultAndFiles_eq_error_iff.1 hagain
    rw [resultAndFiles_installAll_of_provision_error hp', hfiles', hfiles]
    exact ⟨_, rfl, fun _ => rfl⟩
  | ok u s₁ =>
    have hlinkless := linkless_of_provision hs hp
    cases hl : s₁.files.list i.here dir with
    | error cause =>
      rw [resultAndFiles_installAll_of_list_error hp hl] at hfiles ⊢
      have hagain := resultAndFiles_provision_again (t := t) (by rw [hp]; exact hfiles)
      rw [hp] at hagain
      obtain ⟨t₁, hp', hfiles'⟩ := resultAndFiles_eq_ok_iff.1 hagain
      rw [resultAndFiles_installAll_of_list_error hp' (hfiles' ▸ hl), hfiles', hfiles]
      exact ⟨_, rfl, fun _ => rfl⟩
    | ok names =>
      obtain ⟨D, hD, -⟩ := list_eq_ok_iff.1 hl
      obtain ⟨S, hS⟩ := directoryAt_std_of_provision hp
      have g : i.Site dir s₁.files D S := ⟨hlinkless, hD, hS, ht, hc, hroom⟩
      have hlist := listFiles_of_list hl
      have hrun := resultAndFiles_installAll hp hlist
      rw [filter_listFiles hlist hD] at hrun
      have hsettled : Settled (Alike (i.IsModule dir D) s₁.files)
          (i.reportEach ((i.modules dir s₁.files D).map dir.join)) :=
        .bind (g.settled_installEach fun _ h => h) fun _ => .pure _
      rw [hrun] at hfiles ⊢
      have halike : Alike (i.IsModule dir D) s₁.files t.files := by
        rw [hfiles]
        exact hsettled.kept (Alike.refl _ _)
      -- The tree stands, and the modules of the directory are the same.
      have hp' : i.provision t = .ok () t :=
        provision_of_stands (g.stands halike (Tree.stands_of_provision (orFail_eq_ok_iff.1 hp)))
      have hD' := (halike.same hlinkless).directoryAt hD
      have hlist' := listFiles_of_list (list_eq_ok_iff.2 ⟨D, hD', rfl⟩)
      have hrun' := resultAndFiles_installAll hp' hlist'
      rw [filter_listFiles hlist' hD', g.modules_eq halike] at hrun'
      rw [hrun']
      exact hsettled.again (Alike.refl _ _) hfiles

/-- Installing a directory twice comes to the same as installing it once: where there are no links
and space does not run out, with an extension for compiled modules that no module is listed by, and
with a compiler that goes by the path and the content of a source alone, the second run gives the
same report, or ends with the same error, and every entry is what the first run left. -/
theorem installAll_idempotent (hs : s.files.Linkless) (ht : i.settings.TellsApart)
    (hc : i.Steady) (hroom : i.HasRoom dir s) :
    (∀ report s', i.installAll dir s = .ok report s' → i.HasRoom dir s' →
      ∃ s'', i.installAll dir s' = .ok report s'' ∧
        ∀ l, s''.files.node? l = s'.files.node? l) ∧
    ∀ e s', i.installAll dir s = .error e s' → i.HasRoom dir s' →
      ∃ s'', i.installAll dir s' = .error e s'' ∧
        ∀ l, s''.files.node? l = s'.files.node? l := by
  have hagain : ∀ s', s'.files = (resultAndFiles (i.installAll dir s)).2 → i.HasRoom dir s' →
      ∃ files,
        resultAndFiles (i.installAll dir s') = ((resultAndFiles (i.installAll dir s)).1, files) ∧
        ∀ l, files.node? l = s'.files.node? l := by
    intro s' hfiles hroom'
    rw [← installAll_unlimited hroom] at hfiles ⊢
    rw [← installAll_unlimited hroom']
    exact resultAndFiles_installAll_again dir hs ht hc rfl hfiles
  constructor
  · intro report s' h hroom'
    obtain ⟨files, hup, hsame⟩ := hagain s' (by rw [h, resultAndFiles]) hroom'
    rw [h] at hup
    obtain ⟨s'', hrun, rfl⟩ := resultAndFiles_eq_ok_iff.1 hup
    exact ⟨s'', hrun, hsame⟩
  · intro e s' h hroom'
    obtain ⟨files, hup, hsame⟩ := hagain s' (by rw [h, resultAndFiles]) hroom'
    rw [h] at hup
    obtain ⟨s'', hrun, rfl⟩ := resultAndFiles_eq_error_iff.1 hup
    exact ⟨s'', hrun, hsame⟩

theorem steady_writer : Sample.writer.Steady := by
  refine ⟨fun _ _ => .makes [] [0x2A], fun _ _ cause => .notStarted "javac" cause, ?_⟩
  intro fs source content artifact _ ha _
  refine ⟨_, ?_, fun _ => rfl⟩
  have ha : Sample.settings.artifactPath source = .ok artifact := ha
  simp only [Sample.writer, Sample.writing, ha, Answer.carryOut]
  cases fs.write [] artifact [0x2A] <;> rfl

theorem installAll_idempotent_mixed :
    ∃ report s' s'', Sample.writer.installAll (Sample.path "w") Sample.mixed = .ok report s' ∧
      Sample.writer.installAll (Sample.path "w") s' = .ok report s'' ∧
      ∀ l, s''.files.node? l = s'.files.node? l := by
  obtain ⟨s', hrun⟩ := Sample.installAll_of_runSorted Sample.runSorted_mixed
  have hplain : Sample.mixed.files.Plain := plain_of_nodes (by decide +kernel)
  have htells : Sample.writer.settings.TellsApart := Settings.tellsApart_of_default rfl rfl rfl
  obtain ⟨s'', hagain, hsame⟩ :=
    (installAll_idempotent hplain.linkless htells steady_writer (hasRoom_of_ample rfl _ _)).1 _ s'
      hrun (hasRoom_of_ample rfl _ _)
  exact ⟨_, s', s'', hrun, hagain, hsame⟩

end Installer

namespace Sample

/-- The installation with a compiler that reports a file which it has not written. -/
def misreporter : Installer where
  settings
  compiler fs source :=
    let run := writing settings [] fs source
    { run with result := run.result.map fun _ => { path := path "w/A.txt" } }
  here := []

def misreported : Session :=
  start [.file (path "w/A.class") [0x2A], .file (path "w/A.java") [0x61],
    .file (path "w/A.txt") [0x62], .directory (path "home/jil/lib/std")]

/-- The files fill all the room that `full` has, and a module is larger in the tree than where it
comes from. -/
def filled : Session :=
  start [.file (path "w/A.class") [0x2A], .file (path "w/A.java") [0x61],
    .file (path "w/B.jil") [0x62], .file (path "home/jil/lib/std/B.jil") [0x62, 0x62, 0x62]]

def full : Installer := { writer with room := .upTo 6 }

/-- The installation with room for what it leaves and for no artifact beside it. -/
def narrow : Installer := { writer with room := .upTo 5 }

/-- How a run over `w` ends, and what it leaves. -/
def leaving (i : Installer) (s : Session) :
    Option ((InstallError ⊕ List (String × Outcome)) × Nodes) :=
  (sorted? i (path "w") [Utf8.encode "w"] s).map fun r => (ending r, (after r).files.nodes)

theorem installAll_twice {i : Installer} {s t : Session} {entries more : List (String × Outcome)}
    (h : leaving i s = some (.inr entries, t.files.nodes))
    (h' : runSorted i (path "w") [Utf8.encode "w"] t = some (.inr more)) :
    ∃ s' s'', i.installAll (path "w") s = .ok { entries } s' ∧
      i.installAll (path "w") s' = .ok { entries := more } s'' := by
  obtain ⟨first, hfirst, h⟩ := Option.map_eq_some_iff.1 h
  obtain ⟨t', hagain⟩ := installAll_of_runSorted h'
  cases first with
  | error e s' => simp [ending] at h
  | ok report s' =>
    simp only [ending, after, Prod.mk.injEq, Sum.inr.injEq] at h
    obtain ⟨rfl, hnodes⟩ := h
    have hfiles : s'.files = t.files := FileSystem.ext hnodes
    have hsame := i.ignoresEvents_installAll (path "w") s' t hfiles
    rw [hagain] at hsame
    obtain ⟨s'', hrun, -⟩ := resultAndFiles_eq_ok_iff.1 hsame
    exact ⟨s', s'', installAll_of_sorted? hfirst, hrun⟩

end Sample

/-- A second run tells another story if the compiler reports a file that it does not write, if the
first run has made the room that it lacked, and if it has taken the room that the second one needs
beside the modules that there are now. -/
theorem Installer.installAll_again_differs :
    (Sample.misreported.files.Linkless ∧ Sample.misreporter.settings.TellsApart ∧
      (∀ fs source, (∃ e, (Sample.misreporter.compiler fs source).result = .error e ∧
          (Sample.misreporter.compiler fs source).files = fs) ∨
        ∃ artifact, Sample.misreporter.settings.artifactPath source = .ok artifact ∧
          fs.write [] artifact [0x2A] = .ok (Sample.misreporter.compiler fs source).files) ∧
      ∃ s' s'', Sample.misreporter.installAll (Sample.path "w") Sample.misreported = .ok { entries :=
          [("A.java", .installed { path := Sample.path "w/A.txt" }
            (Sample.path "home/jil/lib/std/A.txt"))] } s' ∧
        Sample.misreporter.installAll (Sample.path "w") s' = .ok { entries :=
          [("A.java", .failed (.file .read (Sample.path "w/A.txt") (.code .noEntry)))] } s'') ∧
    (Sample.filled.files.Linkless ∧ Sample.full.settings.TellsApart ∧ Sample.full.Steady ∧
      ∃ s' s'', Sample.full.installAll (Sample.path "w") Sample.filled = .ok { entries :=
          [("A.java", .failed (.file .write (Sample.path "home/jil/lib/std/A.class")
              (.code .noSpace))),
            ("B.jil", .copied (Sample.path "home/jil/lib/std/B.jil"))] } s' ∧
        Sample.full.installAll (Sample.path "w") s' = .ok { entries :=
          [("A.java", .installed { path := Sample.path "w/A.class" }
              (Sample.path "home/jil/lib/std/A.class")),
            ("B.jil", .copied (Sample.path "home/jil/lib/std/B.jil"))] } s'') ∧
    (Sample.mixed.files.Linkless ∧ Sample.narrow.settings.TellsApart ∧ Sample.narrow.Steady ∧
      ∃ s' s'', Sample.narrow.installAll (Sample.path "w") Sample.mixed = .ok { entries :=
          [("A.java", .installed { path := Sample.path "w/A.class" }
              (Sample.path "home/jil/lib/std/A.class")),
            ("B.jil", .copied (Sample.path "home/jil/lib/std/B.jil"))] } s' ∧
        Sample.narrow.installAll (Sample.path "w") s' = .ok { entries :=
          [("A.java", .failed (.file .write (Sample.path "home/jil/lib/std/A.class")
              (.code .noSpace))),
            ("B.jil", .copied (Sample.path "home/jil/lib/std/B.jil"))] } s'') := by
  have htells : Sample.settings.TellsApart := Settings.tellsApart_of_default rfl rfl rfl
  refine ⟨⟨(plain_of_nodes (by decide +kernel)).linkless, htells, fun fs source => ?_, ?_⟩,
    ⟨(plain_of_nodes (by decide +kernel)).linkless, htells, steady_writer, ?_⟩,
    (plain_of_nodes (by decide +kernel)).linkless, htells, steady_writer, ?_⟩
  · have hpath : Sample.misreporter.settings.artifactPath source =
      Sample.settings.artifactPath source := rfl
    rw [hpath]
    simp only [Sample.misreporter, Sample.writing]
    cases ha : Sample.settings.artifactPath source with
    | error fault => exact Or.inl ⟨_, rfl, rfl⟩
    | ok artifact =>
      cases hw : fs.write [] artifact [0x2A] with
      | error cause => exact Or.inl ⟨_, by simp [hw]; rfl, by simp [hw]⟩
      | ok files => exact Or.inr ⟨artifact, rfl, by simp [hw]⟩
  -- The files that the first run leaves, with the artifact still beside its source.
  · exact Sample.installAll_twice (t := Sample.start [.file (Sample.path "w/A.class") [0x2A],
      .file (Sample.path "w/A.java") [0x61], .directory (Sample.path "home/jil/lib/std"),
      .file (Sample.path "home/jil/lib/std/A.txt") [0x62]]) (by decide +kernel) (by decide +kernel)
  -- The files that the first run leaves, with an empty file for the module that did not fit.
  · exact Sample.installAll_twice (t := Sample.start [.file (Sample.path "w/A.class") [0x2A],
      .file (Sample.path "w/A.java") [0x61], .file (Sample.path "w/B.jil") [0x62],
      .file (Sample.path "home/jil/lib/std/B.jil") [0x62],
      .file (Sample.path "home/jil/lib/std/A.class") []]) (by decide +kernel) (by decide +kernel)
  -- The files that the first run leaves, which fill all the room there is.
  · exact Sample.installAll_twice (t := Sample.start [.file (Sample.path "w/A.java") [0x61],
      .file (Sample.path "w/B.jil") [0x62], .file (Sample.path "w/C") [0x63],
      .directory (Sample.path "home/jil/lib/std"),
      .file (Sample.path "home/jil/lib/std/A.class") [0x2A],
      .file (Sample.path "home/jil/lib/std/B.jil") [0x62]]) (by decide +kernel) (by decide +kernel)

end ModuleInstall
