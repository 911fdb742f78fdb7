import ModuleInstall.Compile.Machine
import ModuleInstall.Rehearsal.Rule

/-! # A program that acts by rules -/

namespace ModuleInstall.Rehearsal

structure ProgramRule where
  cue : Cue := {}
  edits : Edits := {}
  /-- The source is copied to the place of its artifact. -/
  copy : Bool := true
  output : Bytes := []
  errors : Bytes := []
  ending : Ending := .exit 0
  deriving DecidableEq, Repr

/-- The artifact of a source: the name up to its last dot, and `.class`. -/
def artifactName (source : Bytes) : Bytes :=
  ((splitAtLast Bytes.dot source).map (·.1)).getD source ++ Utf8.encode ".class"

/-- The path without the steps at its end that stay where they are. -/
def withoutStays (p : Bytes) : Bytes :=
  let (first, others) := pieces Bytes.slash p
  glue Bytes.slash first (dropTrailing (fun piece => piece == [] || piece == [Bytes.dot]) others)

/-- The edits as the program makes them. It refuses to remove what a path does not name at its end,
and makes a directory also for a path that ends in one and a stay. -/
def ProgramRule.ownEdits (r : ProgramRule) : Edits :=
  { r.edits with
    remove := r.edits.remove.filter fun p => (Route.ofBytes p).endsInName
    makeDirectories := r.edits.makeDirectories.map withoutStays }

/-- The signals that do nothing to a program that has not asked for them. -/
def idleSignals : List Nat := [0, 17, 18, 23, 28]

/-- How the program ends. It goes on after a signal that does nothing. -/
def ProgramRule.lastEnding (r : ProgramRule) : Ending :=
  match r.ending with
  | .signal n => if n ∈ idleSignals then .exit 0 else .signal n
  | .exit code => .exit code

/-- Copies a file, if that can be done. The copy is emptied before the file is read, so that a file
that is its own copy is lost. -/
def copyFile (fs : FileSystem) (here : Location) (source copy : Path) : FileSystem :=
  match fs.write here copy [] with
  | .error _ => fs
  | .ok emptied => emptied.orSame (do emptied.write here copy (← emptied.read here source))

/-- Runs by one rule. If there is no source to be copied, that is reported, and nothing else
happens. -/
def ProgramRule.run (r : ProgramRule) (directory : Location) (source : Bytes) (fs : FileSystem) :
    Trace :=
  let (scene, directory) := r.ownEdits.apply fs directory ⟨[]⟩
  let fs := scene.files
  if r.copy then
    match fs.stat directory ⟨source⟩ with
    | .ok (.file _ _) =>
      { ending := r.lastEnding, output := r.output, errors := r.errors
        files := copyFile fs directory ⟨source⟩ ⟨artifactName source⟩ }
    | _ =>
      { ending := .exit 2, output := []
        errors := Utf8.encode "error: file not found: " ++ source ++ [0x0A]
        files := fs }
  else { ending := r.lastEnding, output := r.output, errors := r.errors, files := fs }

/-- The program that follows the first rule for its first argument. -/
def program (rules : List ProgramRule) : Program := fun directory args fs =>
  let source := args.headD []
  let rule := (rules.find? fun r => r.cue.isFor source).getD {}
  rule.run directory source fs

/-- What a file holds that is started as a program of rules. -/
def mark : Bytes := Utf8.encode "#!rules\n"

def machine (searchPath : List Path) (rules : List ProgramRule) : Machine where
  searchPath
  load content := if content = mark then some (program rules) else none

end ModuleInstall.Rehearsal
