import ModuleInstall.Compile.Machine
import ModuleInstall.Failure
import ModuleInstall.Module.Kind
import ModuleInstall.Session
import ModuleInstall.Text.Lines

/-! # Compilers -/

namespace ModuleInstall

/-- What a compiler did with a source. -/
structure Compilation where
  result : Except CompileError Artifact
  files : FileSystem
  events : List Event := []

/-- The compilation of a source among the files as they stand. -/
abbrev Compiler := FileSystem → Path → Compilation

/-- Asks a compiler in a session. -/
def Compiler.compile (c : Compiler) (source : Path) : Action CompileError Artifact := fun s =>
  let run := c s.files source
  let after : Session := { files := run.files, events := s.events ++ .asked source :: run.events }
  match run.result with
  | .ok artifact => .ok artifact after
  | .error e => .error e after

/-! ## A compiler that is a program -/

/-- The lines of a stream that are not blank. -/
def notesIn (stream : Bytes) : List String :=
  ((Text.lines (Utf8.decode stream)).filter fun line => !line.all Text.isBlank).map String.ofList

/-- The text of a stream without the blanks at its end. -/
def diagnosticIn (stream : Bytes) : String := String.ofList (Text.trimEnd (Utf8.decode stream))

namespace Trace

/-- The notes of a compiler: those of its output, and then those of its error stream. -/
def notes (t : Trace) : List String := notesIn t.output ++ notesIn t.errors

/-- Why a compiler failed. Its output counts only if its error stream says nothing. -/
def diagnostic (t : Trace) : String :=
  if diagnosticIn t.errors = "" then diagnosticIn t.output else diagnosticIn t.errors

end Trace

/-- How a source is called in a record. -/
def Path.shortName (p : Path) : String :=
  match p.fileName? with
  | some n => Utf8.toText n
  | none => p.display

/-- The records of a compilation that succeeded. -/
def successRecords (source : Path) (notes : List String) : List Record :=
  notes.map Record.detail ++ [.detail ("compiled " ++ source.shortName)]

/-- The compiler of the settings, run on a machine by somebody in the directory `here`. -/
def Machine.compiler (m : Machine) (s : Settings) (here : Location) : Compiler := fun fs source =>
  let invocation := s.invocation source
  match m.start here invocation fs with
  | .error e => { result := .error (.notStarted s.compiler e), files := fs }
  | .ok (directory, launch) =>
    let trace := launch.program directory launch.args fs
    let begun : Event := .started directory launch.args
    if trace.ending.succeeded then
      { result :=
          match s.artifactPath source with
          | .ok path => .ok { path, notes := trace.notes }
          | .error fault => .error (.unnamable fault)
        files := trace.files
        events := begun :: (successRecords source trace.notes).map Event.printed }
    else
      { result := .error (.failed s.compiler source trace.ending.code? trace.diagnostic)
        files := trace.files
        events := [begun] }

end ModuleInstall
