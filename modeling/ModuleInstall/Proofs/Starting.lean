import ModuleInstall.Proofs.Designation
import ModuleInstall.Proofs.Sample
import ModuleInstall.Proofs.RespelledTurn

/-! # Which program is started -/

namespace ModuleInstall

/-- The words of a command line can be handed to a program. -/
def Invocation.Deliverable (i : Invocation) : Prop :=
  (0 : UInt8) ∉ i.program ∧ ∀ a ∈ i.args, (0 : UInt8) ∉ a ∧ a.length < Machine.maxArgument

instance (i : Invocation) : Decidable i.Deliverable :=
  inferInstanceAs (Decidable ((0 : UInt8) ∉ i.program ∧
    ∀ a ∈ i.args, (0 : UInt8) ∉ a ∧ a.length < Machine.maxArgument))

namespace Machine

/-- The file at a path can be started in a directory: the machine makes a program of it, or it names
an interpreter that can be started. The limit is on the number of files. -/
inductive Executes (m : Machine) (fs : FileSystem) (directory : Location) :
    (limit : Nat) → Path → List Bytes → Launch → Prop
  | program {limit : Nat} {p : Path} {args : List Bytes} {content : Bytes} {program : Program}
      (file : fs.stat directory p = .ok (.file content true))
      (loaded : m.load content = some program) :
      Executes m fs directory (limit + 1) p args { program, args }
  | script {limit : Nat} {p : Path} {args : List Bytes} {content : Bytes} {i : Interpreter}
      {launch : Launch} (file : fs.stat directory p = .ok (.file content true))
      (unknown : m.load content = none) (named : Interpreter.ofContent? content = some i)
      (started :
        Executes m fs directory limit i.path (i.option.toList ++ p.bytes :: args) launch) :
      Executes m fs directory (limit + 1) p args launch

variable {m : Machine} {s : Settings} {here D : Location} {fs : FileSystem} {source p : Path}
  {launch : Launch} {limit : Nat} {args : List Bytes} {content : Bytes}

/-! ## Executable files -/

theorem executableAt_eq_ok_iff :
    executableAt fs D p = .ok content ↔ fs.stat D p = .ok (.file content true) := by
  unfold executableAt
  split
  · rename_i e he
    simp [he]
  · rename_i content' hok
    simp [hok]
  · rename_i node hother hok
    simp only [hok, Except.ok.injEq, reduceCtorEq, false_iff]
    exact hother content

theorem Executes.exists_stat (h : m.Executes fs D limit p args launch) :
    ∃ content, fs.stat D p = .ok (.file content true) := by
  cases h with
  | program file _ => exact ⟨_, file⟩
  | script file _ _ _ => exact ⟨_, file⟩

theorem launch_eq_ok_iff (hfile : fs.stat D p = .ok (.file content true)) :
    m.launch fs D limit p content args = .ok launch ↔ m.Executes fs D limit p args launch := by
  induction limit generalizing p content args with
  | zero =>
    rw [Machine.launch]
    exact ⟨nofun, nofun⟩
  | succ limit ih =>
    rw [Machine.launch]
    constructor
    · intro h
      split at h
      · rename_i program hload
        cases h
        exact .program hfile hload
      · cases h
      · rename_i i hload hi
        split at h
        · cases h
        · rename_i next hnext
          have hfile' := executableAt_eq_ok_iff.1 hnext
          exact .script hfile hload hi ((ih hfile').1 h)
    · intro h
      cases h with
      | program file loaded =>
        cases hfile.symm.trans file
        rw [loaded]
      | script file unknown named started =>
        cases hfile.symm.trans file
        obtain ⟨next, hnext⟩ := started.exists_stat
        rw [unknown, named]
        dsimp only
        rw [executableAt_eq_ok_iff.2 hnext]
        exact (ih hnext).2 started

theorem launchAt_eq_ok_iff :
    m.launchAt fs D args p = .ok launch ↔
      (∀ a ∈ args, a.length < maxArgument) ∧ m.Executes fs D maxFiles p args launch := by
  unfold launchAt
  cases hfile : executableAt fs D p with
  | error e =>
    refine ⟨nofun, fun h => ?_⟩
    obtain ⟨content, hstat⟩ := h.2.exists_stat
    cases hfile.symm.trans (executableAt_eq_ok_iff.2 hstat)
  | ok content =>
    dsimp only
    split
    · rename_i hlong
      refine ⟨nofun, fun h => ?_⟩
      obtain ⟨a, ha, hlen⟩ := List.any_eq_true.1 hlong
      exact absurd (h.1 a ha) (Nat.not_lt.2 (of_decide_eq_true hlen))
    · rename_i hshort
      rw [launch_eq_ok_iff (executableAt_eq_ok_iff.1 hfile)]
      refine (and_iff_right fun a ha => Nat.not_le.1 fun hlen => hshort ?_).symm
      exact List.any_eq_true.2 ⟨a, ha, decide_eq_true hlen⟩

/-! ## The program of the settings -/

theorem directoryOf_source (hD : fs.Behind here (source.parent?.getD ⟨[]⟩) D) :
    directoryOf here (s.invocation source) fs = .ok D := by
  cases hparent : source.parent? with
  | some dir =>
    rw [hparent] at hD
    exact Settings.directoryOf_invocation hparent hD
  | none =>
    have hhere : D = here := by
      rw [hparent] at hD
      rcases hD with ⟨-, hD⟩ | hD
      · exact hD
      · cases hD
    simp [directoryOf, Settings.invocation, hparent, hhere]

theorem not_mem_directory (hD : fs.Behind here (source.parent?.getD ⟨[]⟩) D) :
    ∀ d ∈ (s.invocation source).directory, (0 : UInt8) ∉ d.bytes := by
  intro d hd
  obtain ⟨hparent, hne⟩ := Option.filter_eq_some_iff.1 hd
  rw [hparent, Option.getD_some] at hD
  rcases hD with ⟨hempty, -⟩ | hD
  · simp [hempty] at hne
  · exact not_mem_of_directoryAt hD

theorem start_of_slash (hslash : Bytes.slash ∈ Utf8.encode s.compiler)
    (hD : fs.Behind here (source.parent?.getD ⟨[]⟩) D) :
    m.start here (s.invocation source) fs =
      if (s.invocation source).Passable then
        (m.launchAt fs D (s.invocation source).args ⟨Utf8.encode s.compiler⟩).map fun launch =>
          (D, launch)
      else .error .nulInArgument := by
  have hnamed : m.launchNamed fs D (s.invocation source).args (s.invocation source).program =
      m.launchAt fs D (s.invocation source).args ⟨Utf8.encode s.compiler⟩ := by
    have hname : (s.invocation source).program = Utf8.encode s.compiler := rfl
    unfold launchNamed
    rw [hname, if_neg (List.ne_nil_of_mem hslash), if_pos hslash]
  unfold Machine.start
  rw [directoryOf_source hD, ← hnamed]

theorem deliverable_iff (hD : fs.Behind here (source.parent?.getD ⟨[]⟩) D) :
    (s.invocation source).Deliverable ↔
      (s.invocation source).Passable ∧
        ∀ a ∈ (s.invocation source).args, a.length < maxArgument := by
  constructor
  · rintro ⟨hprogram, hargs⟩
    exact ⟨⟨hprogram, fun a ha => (hargs a ha).1, not_mem_directory hD⟩, fun a ha => (hargs a ha).2⟩
  · rintro ⟨⟨hprogram, hargs, -⟩, hshort⟩
    exact ⟨hprogram, fun a ha => ⟨hargs a ha, hshort a ha⟩⟩

theorem start_eq_ok_iff (hslash : Bytes.slash ∈ Utf8.encode s.compiler)
    (hD : fs.Behind here (source.parent?.getD ⟨[]⟩) D) {directory : Location} :
    m.start here (s.invocation source) fs = .ok (directory, launch) ↔
      directory = D ∧ (s.invocation source).Deliverable ∧
        m.Executes fs D maxFiles ⟨Utf8.encode s.compiler⟩ (s.invocation source).args launch := by
  rw [start_of_slash hslash hD, deliverable_iff hD, and_assoc (a := Invocation.Passable _),
    ← launchAt_eq_ok_iff]
  split
  · rename_i hpass
    cases m.launchAt fs D (s.invocation source).args ⟨Utf8.encode s.compiler⟩ with
    | error e => simp [Except.map]
    | ok launch' => simp [Except.map, hpass, eq_comm]
  · rename_i hpass
    simp [hpass]

/-! ## The compilation of a source -/

theorem compiler_of_error {e : SystemError}
    (hstart : m.start here (s.invocation source) fs = .error e) :
    m.compiler s here fs source = { result := .error (.notStarted s.compiler e), files := fs } := by
  simp only [compiler, hstart]

theorem compiler_of_ok {directory : Location}
    (hstart : m.start here (s.invocation source) fs = .ok (directory, launch)) :
    let run := m.compiler s here fs source
    run.files = (launch.program directory launch.args fs).files ∧
      run.events.head? = some (.started directory launch.args) ∧
        ∀ program e, run.result ≠ .error (.notStarted program e) := by
  simp only [compiler, hstart]
  split
  · refine ⟨rfl, rfl, fun program e => ?_⟩
    cases s.artifactPath source <;> nofun
  · exact ⟨rfl, rfl, nofun⟩

/-- Compiling a source starts what the name of the compiler stands for in the directory of the
source, and fails to start a compiler only if there is nothing that can be started, or if a word
cannot be handed over. -/
theorem compiler_starts_beside_source (hslash : Bytes.slash ∈ Utf8.encode s.compiler)
    (hD : fs.Behind here (source.parent?.getD ⟨[]⟩) D) :
    let run := m.compiler s here fs source
    let command := s.invocation source
    ((∃ e, run.result = .error (.notStarted s.compiler e)) ↔
        ¬command.Deliverable ∨
          ¬∃ launch, m.Executes fs D maxFiles ⟨Utf8.encode s.compiler⟩ command.args launch) ∧
      ((∃ e, run.result = .error (.notStarted s.compiler e)) → run.files = fs ∧ run.events = []) ∧
      ∀ launch, command.Deliverable →
        m.Executes fs D maxFiles ⟨Utf8.encode s.compiler⟩ command.args launch →
          run.files = (launch.program D launch.args fs).files ∧
            run.events.head? = some (.started D launch.args) := by
  intro run command
  cases hstart : m.start here command fs with
  | error e =>
    have hrun : run = { result := .error (.notStarted s.compiler e), files := fs } :=
      compiler_of_error hstart
    have hnone (launch : Launch) (hwords : command.Deliverable)
        (hlaunch : m.Executes fs D maxFiles ⟨Utf8.encode s.compiler⟩ command.args launch) :
        False := by
      cases hstart.symm.trans ((start_eq_ok_iff hslash hD).2 ⟨rfl, hwords, hlaunch⟩)
    refine ⟨⟨fun _ => ?_, fun _ => ⟨e, by rw [hrun]⟩⟩, fun _ => by rw [hrun]; exact ⟨rfl, rfl⟩,
      fun launch hwords hlaunch => (hnone launch hwords hlaunch).elim⟩
    rw [← not_and_or]
    rintro ⟨hwords, launch, hlaunch⟩
    exact hnone launch hwords hlaunch
  | ok started =>
    obtain ⟨directory, launch⟩ := started
    obtain ⟨rfl, hwords, hlaunch⟩ := (start_eq_ok_iff hslash hD).1 hstart
    obtain ⟨-, -, hrun⟩ := compiler_of_ok hstart
    refine ⟨⟨fun ⟨e, he⟩ => absurd he (hrun _ e), ?_⟩, fun ⟨e, he⟩ => absurd he (hrun _ e),
      fun launch' _ hlaunch' => ?_⟩
    · rintro (hno | hno)
      · exact absurd hwords hno
      · exact absurd ⟨launch, hlaunch⟩ hno
    · have hstart' := (start_eq_ok_iff hslash hD).2 ⟨rfl, hwords, hlaunch'⟩
      exact ⟨(compiler_of_ok hstart').1, (compiler_of_ok hstart').2.1⟩

end Machine

/-- Two sources, and beside one of them the program that compiles. -/
def Sample.workshop : Session :=
  start [.program (path "work/bin/javac") Rehearsal.mark, .file (path "work/A.java") [0x61],
    .file (path "work/w/A.java") [0x61]]

/-- The directory of the program that compiles. -/
def Sample.bench : Location := [Utf8.encode "work"]

theorem Machine.executes_workshop (args : List Bytes) :
    ∃ launch, Sample.machine.Executes Sample.workshop.files Sample.bench maxFiles
      (Sample.path "bin/javac") args launch :=
  ⟨_, .program (Sample.eq_ok_of_toOption (by decide +kernel)) (if_pos rfl)⟩

theorem Machine.compiler_starts_beside_source_workshop :
    let s : Settings := { Sample.settings with compiler := "bin/javac" }
    let fs := Sample.workshop.files
    let run := Sample.machine.compiler s Sample.bench fs
    Bytes.slash ∈ Utf8.encode s.compiler ∧
      fs.Behind Sample.bench ((Sample.path "A.java").parent?.getD ⟨[]⟩) Sample.bench ∧
      (∃ args, (run (Sample.path "A.java")).events.head? = some (.started Sample.bench args)) ∧
      fs.Behind Sample.bench ((Sample.path "w/A.java").parent?.getD ⟨[]⟩)
        (Utf8.encode "w" :: Sample.bench) ∧
      ∃ e, (run (Sample.path "w/A.java")).result = .error (.notStarted s.compiler e) := by
  intro s fs run
  have hslash : Bytes.slash ∈ Utf8.encode s.compiler := by decide
  have hhere : fs.Behind Sample.bench ((Sample.path "A.java").parent?.getD ⟨[]⟩) Sample.bench :=
    .inl ⟨by decide, rfl⟩
  have hbelow : fs.Behind Sample.bench ((Sample.path "w/A.java").parent?.getD ⟨[]⟩)
      (Utf8.encode "w" :: Sample.bench) :=
    .inr (Sample.eq_ok_of_toOption (by decide +kernel))
  obtain ⟨launch, hlaunch⟩ :=
    executes_workshop (s.invocation (Sample.path "A.java")).args
  obtain ⟨-, -, hstarted⟩ :=
    compiler_starts_beside_source (m := Sample.machine) hslash hhere
  obtain ⟨hnot, -, -⟩ := compiler_starts_beside_source (m := Sample.machine) hslash hbelow
  refine ⟨hslash, hhere, ⟨_, (hstarted launch (by decide) hlaunch).2⟩, hbelow,
    hnot.2 (.inr ?_)⟩
  rintro ⟨launch, hlaunch⟩
  obtain ⟨content, hstat⟩ := hlaunch.exists_stat
  have hnone : (fs.stat (Utf8.encode "w" :: Sample.bench) ⟨Utf8.encode s.compiler⟩).toOption =
      none := by decide +kernel
  rw [hstat] at hnone
  cases hnone

/-- What the name of the compiler stands for in the directory of the installer is not what is
started. Nor is it enough that a program is there. -/
theorem Machine.compiler_not_beside_installer :
    let s : Settings := { Sample.settings with compiler := "bin/javac" }
    let fs := Sample.workshop.files
    let source := Sample.path "w/A.java"
    let odd : Settings := { s with release := "\x00" }
    Bytes.slash ∈ Utf8.encode s.compiler ∧ (Utf8.encode s.compiler).head? ≠ some Bytes.slash ∧
      (fs.directoryAt Sample.bench (Sample.path "w")).toOption =
        some (Utf8.encode "w" :: Sample.bench) ∧
      (∀ args, ∃ launch, Sample.machine.Executes fs Sample.bench maxFiles
        ⟨Utf8.encode s.compiler⟩ args launch) ∧
      (Sample.machine.compiler s Sample.bench fs source).result =
        .error (.notStarted "bin/javac" (.code .noEntry)) ∧
      (Sample.machine.compiler odd Sample.bench fs (Sample.path "A.java")).result =
        .error (.notStarted "bin/javac" .nulInArgument) := by
  intro s fs source odd
  exact ⟨by decide, by decide, by decide +kernel, executes_workshop,
    Sample.eq_error_of_error? (by decide +kernel), Sample.eq_error_of_error? (by decide +kernel)⟩

end ModuleInstall
