import ModuleInstall.Proofs.Narration
import ModuleInstall.Proofs.Sample

/-! # What is told at the end -/

namespace ModuleInstall

open ModuleInstall.Action

/-! ## The end -/

theorem Report.failures_sublist (r : Report) :
    (r.failures.map Prod.fst).Sublist (r.entries.map Prod.fst) := by
  unfold failures
  induction r.entries with
  | nil => exact .slnil
  | cons entry entries ih =>
    obtain ⟨name, outcome⟩ := entry
    cases outcome with
    | failed e => exact ih.cons_cons name
    | _ => exact ih.cons name

/-- The counts of a report without failures. -/
def Report.tally (r : Report) : String :=
  toString r.installed ++ " compiled, " ++ toString r.copied ++ " copied"

/-- The counts of a report with failures, and the names of those that failed. -/
def Report.tallyWithFailures (r : Report) : String :=
  toString r.installed ++ " compiled, " ++ toString r.copied ++ " copied, " ++
    toString r.failures.length ++ " failed: " ++ ", ".intercalate (r.failures.map Prod.fst)

/-- The last record counts the entries, and names those that failed in the order of their names. Its
stream ends with it. -/
structure Closes (report : Report) (s : Session) : Prop where
  success : report.failures = [] →
    (printed s.events).getLast? = some (.success report.tally) ∧
      ∃ before, s.text .output = before ++
        ("\x1b[1m\x1b[32m==>\x1b[39m\x1b[0m \x1b[32m" ++ report.tally ++ "\x1b[39m\n")
  warning : report.failures ≠ [] →
    (printed s.events).getLast? = some (.warning report.tallyWithFailures) ∧
      ∃ before, s.text .error = before ++
        ("\x1b[1m\x1b[33mwarning:\x1b[39m\x1b[0m \x1b[33m" ++ report.tallyWithFailures ++
          "\x1b[39m\n")
  counted : report.installed + report.copied + report.failures.length = report.entries.length
  increasing : ((report.failures.map Prod.fst).map Utf8.encode).Pairwise fun a b =>
    Bytes.le a b = true ∧ a ≠ b

namespace Installer

variable {i : Installer} {dir : Path} {report : Report} {s s' : Session}

theorem increasing_of_installAll (h : i.installAll dir s = .ok report s') :
    ((report.entries.map Prod.fst).map Utf8.encode).Pairwise fun a b =>
      Bytes.le a b = true ∧ a ≠ b := by
  obtain ⟨paths, s₁, hp, hl, hr⟩ := installAll_ok_iff.1 h
  obtain ⟨loc, hd⟩ := exists_directoryAt_of_listFiles hl
  exact (accounts_of_entries hl hd (forall₂_entryOf_of_reaches hr)).increasing

theorem closing_of_success (h : report.failures = []) :
    Command.closing report = .success report.tally := by
  simp [Command.closing, Command.tallyText, Report.tally, h]

theorem closing_of_failures (h : report.failures ≠ []) :
    Command.closing report = .warning report.tallyWithFailures := by
  obtain ⟨failure, failures, heq⟩ := List.exists_cons_of_ne_nil h
  simp [Command.closing, Command.tallyText, Report.tallyWithFailures, heq, String.append_assoc]

theorem closes_of_installAll (h : i.installAll dir s = .ok report s') (t : Session) :
    Closes report (t.record [.printed (Command.closing report)]) := by
  have hlast : (printed (t.record [.printed (Command.closing report)]).events).getLast? =
      some (Command.closing report) := by
    rw [printed_record, List.getLast?_concat]
  have htext := Session.exists_text_of_getLast? hlast
  constructor
  case success =>
    intro hnone
    rw [closing_of_success hnone] at hlast htext ⊢
    exact ⟨hlast, htext⟩
  case warning =>
    intro hsome
    rw [closing_of_failures hsome] at hlast htext ⊢
    exact ⟨hlast, htext⟩
  case counted => exact report.counts
  case increasing =>
    exact (increasing_of_installAll h).sublist (report.failures_sublist.map Utf8.encode)

/-- How a command finishes that makes a run over a directory, and what it has told by then. The run
starts in a session in which no module has been told of. -/
structure Finishes (i : Installer) (dir : Path) (begun : Session) (f : Finish) : Prop where
  success : f.code = 0 ↔ ∃ report s, i.installAll dir begun = .ok report s
  failure : f.code = 1 ↔ ∃ e s, i.installAll dir begun = .error e s
  /-- Each module with an entry has been told of, and the last record is about all of them. -/
  ended : ∀ report s, i.installAll dir begun = .ok report s →
    (∃ paths, i.Runs dir begun paths report.entries [] s ∧
      Tells paths (report.entries.map Prod.fst) report.entries f.session) ∧
    Closes report f.session
  /-- So has the module that could not be copied, if the run has come to its modules at all. -/
  broken : ∀ e s, i.installAll dir begun = .error e s →
    ((printed f.session.events).getLast? =
        some (.plain .error (CommandError.install dir e).message) ∧
      ∃ before, f.session.text .error = before ++ ((CommandError.install dir e).message ++ "\n")) ∧
    (((∀ paths entries rest t, ¬ i.Runs dir begun paths entries rest t) ∧
        f.session.headers = [] ∧ f.session.complaints = []) ∨
      ∃ paths entries path number rest t,
        i.Runs dir begun paths entries ((path, number) :: rest) t ∧
        i.handleListed paths.length path number t = .error e s ∧
        i.settings.kindOf path = .precompiled ∧
        Tells paths (entries.map Prod.fst ++ [listedName path]) entries f.session)
  /-- A header, a failure and any other record reads as `Record.written` has it. -/
  shown : ∀ stream, f.session.text stream = String.join ((f.session.told stream).map Record.written)

theorem Tells.record {paths : List Path} {names : List String} {entries : List (String × Outcome)}
    (h : Tells paths names entries s) {r : Record} (hh : r.header? = none)
    (hc : r.complaint? = none) : Tells paths names entries (s.record [.printed r]) where
  headed := (Session.hushed_record s hh hc).headers ▸ h.headed
  complaints := (Session.hushed_record s hh hc).complaints.trans h.complaints

theorem closing_unheard (report : Report) :
    (Command.closing report).header? = none ∧ (Command.closing report).complaint? = none := by
  unfold Command.closing
  split <;> exact ⟨rfl, rfl⟩

theorem untold_of_error (ht : i.compiler.Terse) (hh : s.headers = []) (hc : s.complaints = [])
    {e : InstallError} (h : i.provision s = .error e s' ∨
      ∃ s₁, i.provision s = .ok () s₁ ∧ i.listFiles dir s₁ = .error e s') :
    (∀ paths entries rest t, ¬ i.Runs dir s paths entries rest t) ∧ s'.headers = [] ∧
      s'.complaints = [] := by
  have hhush := (allowsHandling_hushed ht).relates_provision s
  rcases h with hp | ⟨s₁, hp, hl⟩
  · rw [hp] at hhush
    refine ⟨?_, hhush.headers.trans hh, hhush.complaints.trans hc⟩
    rintro paths entries rest t ⟨s₁, hp', -⟩
    rw [hp] at hp'
    cases hp'
  · rw [hp] at hhush
    obtain ⟨cause, -, -, rfl⟩ := listFiles_error_iff.1 hl
    refine ⟨?_, hhush.headers.trans hh, hhush.complaints.trans hc⟩
    intro paths entries rest t hr
    rw [(reaches_of_runs hp hr).1] at hl
    cases hl

theorem finishes_of_ok (ht : i.compiler.Terse) (hh : s.headers = []) (hc : s.complaints = [])
    (h : i.installAll dir s = .ok report s') :
    Finishes i dir s { code := 0, session := s'.record [.printed (Command.closing report)] } where
  success := by simp [h]
  failure := by simp [h]
  ended report' t h' := by
    rw [h] at h'
    cases h'
    obtain ⟨paths, hr⟩ := installAll_ok_iff.1 h
    obtain ⟨hheader, hcomplaint⟩ := closing_unheard report
    refine ⟨⟨paths, hr, (tells_of_runs ht hh hc hr).record hheader hcomplaint⟩, ?_⟩
    exact closes_of_installAll h s'
  broken e t h' := by
    rw [h] at h'
    cases h'
  shown stream := Session.text_eq_join _ stream

theorem finishes_of_error (ht : i.compiler.Terse) (hh : s.headers = []) (hc : s.complaints = [])
    {e : InstallError} (h : i.installAll dir s = .error e s') :
    Finishes i dir s
      { code := 1
        session := s'.record [.printed (.plain .error (CommandError.install dir e).message)] } where
  success := by simp [h]
  failure := by simp [h]
  ended report' t h' := by
    rw [h] at h'
    cases h'
  broken e' t h' := by
    rw [h] at h'
    cases h'
    have hlast : (printed (s'.record [.printed (.plain .error
        (CommandError.install dir e).message)]).events).getLast? =
        some (.plain .error (CommandError.install dir e).message) := by
      rw [printed_record, List.getLast?_concat]
    refine ⟨⟨hlast, Session.exists_text_of_getLast? hlast⟩, ?_⟩
    rcases or_assoc.2 (installAll_error_iff.1 h) with
      hearly | ⟨paths, entries, path, number, rest, t, hr, hl⟩
    · obtain ⟨hnone, hh', hc'⟩ := untold_of_error ht hh hc hearly
      have hhush := Session.hushed_record s' (r := .plain .error
        (CommandError.install dir e).message) rfl rfl
      exact Or.inl ⟨hnone, hhush.headers.trans hh', hhush.complaints.trans hc'⟩
    · obtain ⟨hk, htells⟩ := tells_of_last_turn ht hh hc hr hl
      exact Or.inr ⟨paths, entries, path, number, rest, t, hr, hl, hk, htells.record rfl rfl⟩
  shown stream := Session.text_eq_join _ stream

end Installer

namespace Command

open Installer

variable {w : Surroundings} {choices : Choices}

/-- The command that installs a directory ends with the code 0 exactly if the run over the directory
comes to its end, and else with the code 1. It has told of each module that has had its turn, and of
each failure. With the cause `wouldBlock` it does not end, but waits at a pipe. -/
theorem installStdlib_tells
    (hparse : Options.parse installStdlib.grammar w.env w.args = .ok choices)
    (files : FileSystem) :
    (∀ e, choices.settings (userHome? w.env w.accountHome) = .error e →
      (installStdlib.run w files).code = 1 ∧ (installStdlib.run w files).session.headers = [] ∧
        (installStdlib.run w files).session.complaints = [] ∧
        (installStdlib.run w files).session.text .output = "" ∧
        (installStdlib.run w files).session.text .error = (CommandError.settings e).message ++ "\n") ∧
    ∀ settings, choices.settings (userHome? w.env w.accountHome) = .ok settings →
      Finishes (w.installer settings) (directoryOf choices)
        (({ files } : Session).record [.printed (opening settings choices)])
        (installStdlib.run w files) := by
  constructor
  · intro e hsettings
    rw [run_of_settings_error hparse hsettings]
    have hhush := Session.hushed_record { files } (r := .plain .error
      (CommandError.settings e).message) rfl rfl
    refine ⟨rfl, hhush.headers, hhush.complaints, ?_, ?_⟩
    · exact Session.text_record_other { files } (by rintro ⟨⟩)
    · refine (Session.text_record { files } (by rfl)).trans ?_
      rw [Session.text_start, String.empty_append]
      rfl
  · intro settings hsettings
    have ht : (w.installer settings).compiler.Terse := Machine.terse_compiler _ _ _
    generalize hbegun : ({ files } : Session).record [.printed (opening settings choices)] = begun
    have hhush : Session.Hushed { files } begun := hbegun ▸ Session.hushed_record _ rfl rfl
    have hh : begun.headers = [] := hhush.headers
    have hc : begun.complaints = [] := hhush.complaints
    rw [run_of_settings hparse hsettings, show installStdlib.work = installWork from rfl,
      run_installWork, hbegun]
    cases h : (w.installer settings).installAll (directoryOf choices) begun with
    | ok report s => exact finishes_of_ok ht hh hc h
    | error e s => exact finishes_of_error ht hh hc h

end Command

/-- Something that is not a module, a source and a module, the program that compiles, and the
tree. -/
def Sample.assorted : Session :=
  start [.program (path "/bin/javac") Rehearsal.mark, .file (path "/ww/A") [0x63],
    .file (path "/ww/A.java") [0x61], .file (path "/ww/B.jil") [0x62],
    .directory (path "/home/jil/lib/std")]

theorem Command.installStdlib_tells_assorted :
    let f := installStdlib.run (Sample.surroundings Sample.refuser ["/ww"]) Sample.assorted.files
    f.code = 0 ∧
      (∃ paths entries, Installer.Tells paths ["A.java", "B.jil"] entries f.session) ∧
      f.session.complaints = ["javac failed on /ww/A.java (exit code: Some(3))\nno"] ∧
      (printed f.session.events).getLast? =
        some (.warning "0 compiled, 1 copied, 1 failed: A.java") ∧
      ∃ before, f.session.text .error = before ++ ("\x1b[1m\x1b[33mwarning:\x1b[39m\x1b[0m " ++
        "\x1b[33m0 compiled, 1 copied, 1 failed: A.java\x1b[39m\n") := by
  intro f
  let w := Sample.surroundings Sample.refuser ["/ww"]
  let settings : Settings := { home := Sample.path "/home" }
  let choices : Choices := [(.directory, Utf8.encode "/ww")]
  let begun := ({ files := Sample.assorted.files } : Session).record
    [.printed (opening settings choices)]
  let entries : List (String × Outcome) :=
    [("A.java", .failed (.compile (.failed "javac" (Sample.path "/ww/A.java") (some 3) "no"))),
      ("B.jil", .copied (Sample.path "/home/jil/lib/std/B.jil"))]
  have hparse : (Options.parse installStdlib.grammar w.env w.args).toOption = some choices := by
    decide +kernel
  have hsettings : (choices.settings (userHome? w.env w.accountHome)).toOption = some settings := by
    decide +kernel
  have hrun : Sample.runSorted (w.installer settings) (directoryOf choices) [Utf8.encode "ww"]
      begun = some (.inr entries) := by decide +kernel
  obtain ⟨s', hrun⟩ := Sample.installAll_of_runSorted hrun
  have hfinish := (installStdlib_tells (Sample.eq_ok_of_toOption hparse) Sample.assorted.files).2
    settings (Sample.eq_ok_of_toOption hsettings)
  obtain ⟨⟨paths, -, htells⟩, hcloses⟩ := hfinish.ended _ _ hrun
  obtain ⟨hlast, before, htext⟩ := hcloses.warning (by decide)
  refine ⟨hfinish.success.2 ⟨_, s', hrun⟩, ⟨paths, entries, htells⟩, ?_, ?_, before, ?_⟩
  · rw [htells.complaints]
    decide +kernel
  · rw [hlast]
    decide +kernel
  · exact htext.trans (congrArg (before ++ ·) (by decide +kernel))

end ModuleInstall
