import ModuleInstall.Command.BuildModule
import ModuleInstall.Command.InstallStdlib
import ModuleInstall.Proofs.Moving

/-! # How a command finishes -/

namespace ModuleInstall

open ModuleInstall.Action

/-! ## What has been printed -/

/-- The records among some events. -/
def printed (events : List Event) : List Record := events.filterMap Event.record?

theorem Session.files_record (s : Session) (events : List Event) :
    (s.record events).files = s.files := rfl

theorem Session.text_start (files : FileSystem) (stream : Stream) :
    ({ files } : Session).text stream = "" := rfl

theorem Session.text_eq (s : Session) (stream : Stream) :
    s.text stream = stream.text (printed s.events) := rfl

theorem printed_append (events more : List Event) :
    printed (events ++ more) = printed events ++ printed more :=
  List.filterMap_append

theorem printed_map (records : List Record) : printed (records.map Event.printed) = records := by
  simp [printed, Event.record?, Function.comp_def]

theorem printed_record (s : Session) (record : Record) :
    printed (s.record [.printed record]).events = printed s.events ++ [record] :=
  printed_append _ _

/-- The records on a stream. -/
def Session.told (s : Session) (stream : Stream) : List Record :=
  (printed s.events).filter fun r => r.stream == stream

theorem printed_afterCompiling (i : Installer) (source : Path) (s : Session) :
    printed (i.afterCompiling source s).events =
      printed s.events ++ printed (i.compiler s.files source).events :=
  printed_append _ _

/-! ## What it reads like -/

/-- What a terminal gets to see of a record. -/
def Record.written : Record → String
  | .action text => "\x1b[1m\x1b[34m==>\x1b[39m\x1b[0m \x1b[1m" ++ text ++ "\x1b[0m\n"
  | .numbered current total text =>
    "\x1b[36m(" ++ toString current ++ "/" ++ toString total ++ ")\x1b[39m \x1b[1m" ++ text ++
      "\x1b[0m\n"
  | .stage text => "  \x1b[36m->\x1b[39m " ++ text ++ "\n"
  | .detail text => "     \x1b[2m" ++ text ++ "\x1b[0m\n"
  | .success text => "\x1b[1m\x1b[32m==>\x1b[39m\x1b[0m \x1b[32m" ++ text ++ "\x1b[39m\n"
  | .warning text => "\x1b[1m\x1b[33mwarning:\x1b[39m\x1b[0m \x1b[33m" ++ text ++ "\x1b[39m\n"
  | .error text => "\x1b[1m\x1b[31merror:\x1b[39m\x1b[0m \x1b[31m" ++ text ++ "\x1b[39m\n"
  | .plain _ text => text ++ "\n"

theorem Look.append_apply (look : Look) (before text after : String) :
    before ++ look.apply text ++ after =
      (before ++ "\x1b[" ++ look.on ++ "m") ++ text ++ ("\x1b[" ++ look.off ++ "m" ++ after) := by
  simp only [apply, String.append_assoc]

theorem Record.text_eq_written (r : Record) : r.text = r.written := by
  cases r with
  | numbered current total text =>
    -- What stands in front of the numbers, between them and the name, and behind it.
    calc (Record.numbered current total text).text
        = ("\x1b[" ++ Look.cyan.on ++ "m(") ++ toString current ++ "/" ++ toString total ++
            (")\x1b[" ++ Look.cyan.off ++ "m \x1b[" ++ Look.bold.on ++ "m") ++ text ++
            ("\x1b[" ++ Look.bold.off ++ "m\n") := by
          rw [Record.text, line, Look.append_apply]
          simp only [Look.apply, String.append_assoc]
          rfl
      _ = _ := rfl
  | stage text => rfl
  | plain stream text => rfl
  | _ =>
    rw [Record.text, line, Look.append_apply]
    rfl

theorem Stream.text_append (stream : Stream) (records more : List Record) :
    stream.text (records ++ more) = stream.text records ++ stream.text more := by
  rw [text, List.filter_append, List.map_append, String.join_append]
  rfl

theorem Record.text_singleton {r : Record} {stream : Stream} (h : r.stream = stream) :
    stream.text [r] = r.written := by
  rw [Stream.text, List.filter_cons_of_pos (by simpa using h), List.filter_nil,
    List.map_singleton, String.join_cons, String.join_nil, String.append_empty, text_eq_written]

theorem Record.text_singleton_other {r : Record} {stream : Stream} (h : r.stream ≠ stream) :
    stream.text [r] = "" := by
  rw [Stream.text, List.filter_cons_of_neg (by simpa using h)]
  rfl

namespace Session

theorem text_eq_join (s : Session) (stream : Stream) :
    s.text stream = String.join ((s.told stream).map Record.written) := by
  rw [text_eq, Stream.text, told, funext Record.text_eq_written]

theorem text_append (s : Session) (files : FileSystem) (events : List Event) (stream : Stream) :
    ({ files, events := s.events ++ events } : Session).text stream =
      s.text stream ++ stream.text (printed events) := by
  rw [text_eq, text_eq, printed_append, Stream.text_append]

theorem text_record (s : Session) {r : Record} {stream : Stream} (h : r.stream = stream) :
    (s.record [.printed r]).text stream = s.text stream ++ r.written := by
  rw [record, text_append, show printed [.printed r] = [r] from rfl, Record.text_singleton h]

theorem text_record_other (s : Session) {r : Record} {stream : Stream} (h : r.stream ≠ stream) :
    (s.record [.printed r]).text stream = s.text stream := by
  rw [record, text_append, show printed [.printed r] = [r] from rfl, Record.text_singleton_other h,
    String.append_empty]

theorem exists_text_of_getLast? {s : Session} {r : Record}
    (h : (printed s.events).getLast? = some r) :
    ∃ before, s.text r.stream = before ++ r.written := by
  obtain ⟨records, hr⟩ := List.getLast?_eq_some_iff.1 h
  exact ⟨r.stream.text records, by rw [text_eq, hr, Stream.text_append, Record.text_singleton rfl]⟩

end Session

/-! ## The end -/

variable {w : Surroundings} {files : FileSystem} {choices : Choices} {settings : Settings}

theorem Options.exists_value_of_required {g : Grammar} {env : Variables} {args : List Bytes}
    (h : parse g env args = .ok choices) (key : Key) (hk : key ∈ g.required) :
    ∃ value, choices.value? key = some value := by
  unfold parse at h
  repeat' split at h
  all_goals cases h
  rename_i r hr hm
  rw [List.filter_eq_nil_iff] at hm
  refine Option.ne_none_iff_exists'.1 fun hnone => hm key hk ?_
  rw [Option.isNone_iff_eq_none]
  exact hnone

namespace Command

/-- The end of a command whose work ends in this way. -/
def finish : EStateM.Result CommandError Session Unit → Finish
  | .ok _ s => { code := 0, session := s }
  | .error e s => { code := 1, session := s.record [.printed (.plain .error e.message)] }

theorem run_of_parse {c : Command} (h : Options.parse c.grammar w.env w.args = .ok choices) :
    c.run w files = finish (c.workOn w choices { files }) := by
  unfold run
  rw [h]
  cases hw : c.workOn w choices { files } <;> simp [finish, hw]

theorem run_of_settings {c : Command}
    (h : Options.parse c.grammar w.env w.args = .ok choices)
    (hs : choices.settings (userHome? w.env w.accountHome) = .ok settings) :
    c.run w files = finish (c.work w settings choices { files }) := by
  rw [run_of_parse h, workOn, hs]

theorem run_of_settings_error {c : Command} {e : SettingsError}
    (h : Options.parse c.grammar w.env w.args = .ok choices)
    (hs : choices.settings (userHome? w.env w.accountHome) = .error e) :
    c.run w files = finish (.error (.settings e) { files }) := by
  rw [run_of_parse h, workOn, hs]
  rfl

theorem run_buildWork {file : Bytes} (hf : choices.value? .file = some file) (s : Session) :
    buildWork w settings choices s =
      match (w.installer settings).buildModule ⟨file⟩ (choices.value? .install).isSome
          (s.record [.printed (.action ("Building " ++ (Path.mk file).display))]) with
      | .ok built t => .ok () (t.record [.printed (.success (builtText built))])
      | .error e t => .error (buildError ⟨file⟩ e) t := by
  rw [buildWork, hf, run_bind_of_ok (run_print _ _)]
  cases h : (w.installer settings).buildModule ⟨file⟩ (choices.value? .install).isSome
      (s.record [.printed (.action ("Building " ++ (Path.mk file).display))]) with
  | ok built t => exact run_bind_of_ok (orFail_eq_ok_iff.2 h)
  | error e t => exact run_bind_of_error (orFail_eq_error_iff.2 ⟨e, h, rfl⟩)

/-- The directory that is installed, which is the current one unless another is chosen. -/
def directoryOf (choices : Choices) : Path := ⟨(choices.value? .directory).getD [Bytes.dot]⟩

/-- What is told before a directory is installed. -/
def opening (settings : Settings) (choices : Choices) : Record :=
  .action ("Installing stdlib from " ++ (directoryOf choices).display ++ " into " ++
    settings.tree.std.display)

theorem run_installWork (w : Surroundings) (settings : Settings) (choices : Choices)
    (s : Session) :
    installWork w settings choices s =
      match (w.installer settings).installAll (directoryOf choices)
          (s.record [.printed (opening settings choices)]) with
      | .ok report t => .ok () (t.record [.printed (closing report)])
      | .error e t => .error (.install (directoryOf choices) e) t := by
  rw [installWork, run_bind_of_ok (run_print _ _)]
  cases h : (w.installer settings).installAll (directoryOf choices)
      (s.record [.printed (opening settings choices)]) with
  | ok report t => exact run_bind_of_ok (orFail_eq_ok_iff.2 h)
  | error e t => exact run_bind_of_error (orFail_eq_error_iff.2 ⟨e, h, rfl⟩)

end Command

end ModuleInstall
