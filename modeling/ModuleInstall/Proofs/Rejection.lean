import ModuleInstall.Command.BuildModule
import ModuleInstall.Proofs.Finishing
import ModuleInstall.Proofs.Moving
import ModuleInstall.Proofs.Paths
import ModuleInstall.Proofs.Sample

/-! # A source that is not compiled -/

namespace ModuleInstall

open ModuleInstall.Action

/-! ## What the compiler says -/

/-- A stream of which nothing can be seen. -/
def Blank (stream : Bytes) : Prop := ∀ c ∈ Utf8.decode stream, Text.isBlank c = true

/-- The text is what a stream says up to its last character that is not blank. -/
structure Trimmed (stream : Bytes) (text : String) : Prop where
  kept : ∃ blanks, Utf8.decode stream = text.toList ++ blanks ∧ ∀ c ∈ blanks, Text.isBlank c = true
  last : ∀ c, text.toList.getLast? = some c → Text.isBlank c = false

/-- The text is what a program that failed says: its error stream, or its output if it has written
nothing that can be seen to its error stream. -/
structure Diagnosed (t : Trace) (text : String) : Prop where
  errors : ¬ Blank t.errors → Trimmed t.errors text
  output : Blank t.errors → Trimmed t.output text
  empty : text = "" ↔ Blank t.errors ∧ Blank t.output

theorem trimmed_diagnosticIn (stream : Bytes) : Trimmed stream (diagnosticIn stream) where
  kept := by simpa [diagnosticIn, Text.trimEnd] using exists_dropTrailing _ (Utf8.decode stream)
  last := by
    intro c hc
    rw [diagnosticIn, String.toList_ofList] at hc
    exact not_of_getLast?_dropTrailing hc

theorem diagnosticIn_eq_empty_iff (stream : Bytes) : diagnosticIn stream = "" ↔ Blank stream := by
  rw [Blank, ← dropTrailing_eq_nil_iff]
  exact String.ofList_eq_empty_iff

theorem Trace.diagnosed (t : Trace) : Diagnosed t t.diagnostic := by
  have herrors := diagnosticIn_eq_empty_iff t.errors
  unfold Trace.diagnostic
  by_cases hblank : Blank t.errors
  · rw [if_pos (herrors.2 hblank)]
    exact ⟨fun h => absurd hblank h, fun _ => trimmed_diagnosticIn _,
      by simp [diagnosticIn_eq_empty_iff, hblank]⟩
  · rw [if_neg (mt herrors.1 hblank)]
    exact ⟨fun _ => trimmed_diagnosticIn _, fun h => absurd h hblank,
      by simp [diagnosticIn_eq_empty_iff, hblank]⟩

/-- How the end of a program reads. -/
def Ending.words : Ending → String
  | .exit code => "Some(" ++ toString code.toNat ++ ")"
  | .signal _ => "None"

theorem Ending.codeText_code? (e : Ending) : CompileError.codeText e.code? = e.words := by
  cases e <;> rfl

theorem Ending.succeeded_eq_false_iff (e : Ending) : e.succeeded = false ↔ e ≠ .exit 0 := by
  cases e <;> simp [succeeded]

/-! ## What the command says -/

theorem Installer.buildModule_of_compile_error {i : Installer} {source : Path} {s : Session}
    {e : CompileError} (h : (i.compiler s.files source).result = .error e) (install : Bool) :
    i.buildModule source install s =
      .error (.compile e) (i.afterCompiling source (s.record [.printed (.stage "compile")])) := by
  have hrun := i.run_compile source (s.record [.printed (.stage "compile")])
  rw [show (s.record [.printed (.stage "compile")]).files = s.files from rfl, h] at hrun
  rw [buildModule, run_bind_of_ok (run_print _ _)]
  exact run_bind_of_error hrun

/-- The command has said what it was about to do, and then with a text why it is not done. -/
structure Refused (file : Path) (message : String) (files : FileSystem) (f : Finish) : Prop where
  code : f.code = 1
  files : f.session.files = files
  output : f.session.text .output =
    "\x1b[1m\x1b[34m==>\x1b[39m\x1b[0m \x1b[1m" ++ ("Building " ++ file.display) ++ "\x1b[0m\n" ++
      "  \x1b[36m->\x1b[39m compile\n"
  error : f.session.text .error = message ++ "\n"

namespace Command

variable {w : Surroundings} {files : FileSystem} {choices : Choices} {settings : Settings}

theorem refused_of_compile_error {file : Bytes} {e : CompileError} {files' : FileSystem}
    {events : List Event}
    (hparse : Options.parse buildModule.grammar w.env w.args = .ok choices)
    (hsettings : choices.settings (userHome? w.env w.accountHome) = .ok settings)
    (hfile : choices.value? .file = some file)
    (hc : w.machine.compiler settings w.here files ⟨file⟩ =
      { result := .error e, files := files', events })
    (hsilent : printed events = []) :
    Refused ⟨file⟩ e.message files' (buildModule.run w files) := by
  have hcompiler : (w.installer settings).compiler files ⟨file⟩ =
      { result := .error e, files := files', events } := hc
  have hresult : ((w.installer settings).compiler files ⟨file⟩).result = .error e := by
    rw [hcompiler]
  rw [run_of_settings hparse hsettings, show buildModule.work = buildWork from rfl,
    run_buildWork hfile, Installer.buildModule_of_compile_error hresult, finish]
  generalize hannounced : Session.record { files } _ = announced
  generalize hbegun : Session.record announced _ = begun
  generalize hcompiled : (w.installer settings).afterCompiling ⟨file⟩ begun = compiled
  have hfiles : begun.files = files := by
    rw [← hbegun, ← hannounced]
    rfl
  -- Between the records of progress and the error only the compiler has had a say.
  have hsame : ∀ stream, compiled.text stream = begun.text stream := by
    intro stream
    rw [← hcompiled, Session.text_eq, printed_afterCompiling, hfiles, hcompiler, hsilent,
      List.append_nil]
    rfl
  constructor
  case code => rfl
  case files =>
    rw [Session.files_record, ← hcompiled, Installer.afterCompiling, hfiles, hcompiler]
  case output =>
    have haction : announced.text .output =
        (Record.action ("Building " ++ (Path.mk file).display)).written := by
      rw [← hannounced, Session.text_record _ (by rfl), Session.text_start, String.empty_append]
    have hstage : begun.text .output = announced.text .output ++ (Record.stage "compile").written := by
      rw [← hbegun, Session.text_record _ (by rfl)]
    refine (compiled.text_record_other (r := .plain .error e.message) (by rintro ⟨⟩)).trans ?_
    rw [hsame, hstage, haction]
    rfl
  case error =>
    have hnone : begun.text .error = "" := by
      rw [← hbegun, Session.text_record_other _ (by rintro ⟨⟩), ← hannounced,
        Session.text_record_other _ (by rintro ⟨⟩), Session.text_start]
    refine (compiled.text_record (r := .plain .error e.message) (by rfl)).trans ?_
    rw [hsame, hnone, String.empty_append]
    rfl

/-- A compiler that cannot be started, or that ends otherwise than with the exit code 0, ends the
command that builds a module with the code 1. What the command prints is fixed by what happened, and
the files are as they were, or as the compiler left them. -/
theorem buildModule_refused
    (hparse : Options.parse buildModule.grammar w.env w.args = .ok choices)
    (hsettings : choices.settings (userHome? w.env w.accountHome) = .ok settings)
    (files : FileSystem) :
    ∃ file, choices.value? .file = some file ∧
      (∀ cause, w.machine.start w.here (settings.invocation ⟨file⟩) files = .error cause →
        Refused ⟨file⟩ ("failed to start " ++ settings.compiler ++ ": " ++ cause.message) files
          (buildModule.run w files)) ∧
      ∀ directory launch,
        w.machine.start w.here (settings.invocation ⟨file⟩) files = .ok (directory, launch) →
        (launch.program directory launch.args files).ending ≠ .exit 0 →
        ∃ diagnostic, Diagnosed (launch.program directory launch.args files) diagnostic ∧
          Refused ⟨file⟩ (settings.compiler ++ " failed on " ++ (Path.mk file).display ++
              " (exit code: " ++ (launch.program directory launch.args files).ending.words ++ ")\n" ++
              diagnostic)
            (launch.program directory launch.args files).files (buildModule.run w files) := by
  obtain ⟨file, hfile⟩ := Options.exists_value_of_required hparse .file (by decide)
  refine ⟨file, hfile, fun cause hstart => ?_, fun directory launch hstart hending => ?_⟩
  · have hc : w.machine.compiler settings w.here files ⟨file⟩ =
        { result := .error (.notStarted settings.compiler cause), files } := by
      simp only [Machine.compiler, hstart]
    have hrefused := refused_of_compile_error hparse hsettings hfile hc rfl
    exact hrefused
  · generalize htrace : launch.program directory launch.args files = trace at *
    have hc : w.machine.compiler settings w.here files ⟨file⟩ =
        { result := .error (.failed settings.compiler ⟨file⟩ trace.ending.code? trace.diagnostic)
          files := trace.files
          events := [.started directory launch.args] } := by
      simp only [Machine.compiler, hstart, htrace, (Ending.succeeded_eq_false_iff _).2 hending,
        Bool.false_eq_true, if_false]
    have hrefused := refused_of_compile_error hparse hsettings hfile hc rfl
    refine ⟨trace.diagnostic, trace.diagnosed, ?_⟩
    rw [← Ending.codeText_code?]
    exact hrefused

theorem buildModule_refused_sample :
    let file := Sample.path "/ww/A.java"
    let files := Sample.rooted.files
    let args := ["-f", "/ww/A.java", "-i"]
    let failing := Sample.surroundings Sample.refuser args
    let missing := Sample.surroundings (Rehearsal.machine [] []) args
    (∃ t diagnostic, t.ending = .exit 3 ∧ Blank t.errors ∧ Diagnosed t diagnostic ∧
        Refused file ("javac failed on /ww/A.java (exit code: Some(3))\n" ++ diagnostic) t.files
          (buildModule.run failing files)) ∧
      Refused file "failed to start javac: No such file or directory (os error 2)" files
        (buildModule.run missing files) := by
  intro file files args failing missing
  let settings : Settings := { home := Sample.path "/home" }
  have hparse : (Options.parse buildModule.grammar failing.env failing.args).toOption =
      some [(.file, file.bytes), (.install, [])] := by decide +kernel
  have hsettings : (Choices.settings [(.file, file.bytes), (.install, [])]
      (userHome? failing.env failing.accountHome)).toOption = some settings := by decide +kernel
  have hparse := Sample.eq_ok_of_toOption hparse
  have hsettings := Sample.eq_ok_of_toOption hsettings
  have hfile : ∀ bytes, Choices.value? [(.file, file.bytes), (.install, [])] .file = some bytes →
      (⟨bytes⟩ : Path) = file := by
    intro bytes h
    cases h
    rfl
  constructor
  · obtain ⟨bytes, hb, -, hends⟩ := buildModule_refused (w := failing) hparse hsettings files
    rw [hfile bytes hb] at hends
    have htrace : ((failing.machine.start [] (settings.invocation file) files).toOption.map
        fun x => ((x.2.program x.1 x.2.args files).ending, (x.2.program x.1 x.2.args files).errors)) =
        some (.exit 3, Utf8.encode " \n") := by decide +kernel
    cases hstart : failing.machine.start [] (settings.invocation file) files with
    | error cause => simp [hstart, Except.toOption] at htrace
    | ok started =>
      obtain ⟨directory, launch⟩ := started
      simp only [hstart, Except.toOption, Option.map_some, Option.some.injEq,
        Prod.mk.injEq] at htrace
      obtain ⟨hending, herrors⟩ := htrace
      obtain ⟨diagnostic, hd, hrefused⟩ := hends directory launch hstart (by simp [hending])
      refine ⟨_, diagnostic, hending, ?_, hd, ?_⟩
      · rw [Blank, herrors, ← List.all_eq_true]
        decide +kernel
      · have hwords : settings.compiler ++ " failed on " ++ file.display ++ " (exit code: " ++
            (Ending.exit 3).words ++ ")\n" = "javac failed on /ww/A.java (exit code: Some(3))\n" := by
          decide +kernel
        rwa [hending, hwords] at hrefused
  · obtain ⟨bytes, hb, hfails, -⟩ := buildModule_refused (w := missing) hparse hsettings files
    rw [hfile bytes hb] at hfails
    have hstart : Sample.error? (missing.machine.start [] (settings.invocation file) files) =
        some (.code .noEntry) := by decide +kernel
    exact hfails _ (Sample.eq_error_of_error? hstart)

end Command

end ModuleInstall
