import ModuleInstall.Compile.Compiler
import ModuleInstall.Install.Report
import ModuleInstall.Tree.Provision

/-!
# Installing modules

A source is compiled, its artifact copied into the tree and then removed. A precompiled module is
copied into the tree.
-/

namespace ModuleInstall

open ModuleInstall.Action

structure Installer where
  settings : Settings
  compiler : Compiler
  /-- The directory that relative paths start from. -/
  here : Location
  /-- The room that there is for what the installer writes. -/
  room : Room := .ample

namespace Installer

variable (i : Installer)

/-! ## One file -/

/-- Copies a file into the tree under its own name. -/
def copyModule (source : Path) : Action InstallError Path := do
  match source.fileName? with
  | none => throw (.file .place source .noFileName)
  | some n =>
    let dest := i.settings.tree.modulePath n
    let content ← query (·.read i.here source) (.file .read source)
    print (.detail ("install " ++ source.display ++ " -> " ++ dest.display))
    save i.room i.here dest content (.file .write dest)
    return dest

/-- Moves an artifact into the tree. -/
def moveArtifact (artifact : Artifact) : Action InstallError Path := do
  let dest ← i.copyModule artifact.path
  change (·.remove i.here artifact.path) (.file .remove artifact.path)
  return dest

def compile (source : Path) : Action InstallError Artifact :=
  (i.compiler.compile source).orFail .compile

/-- Compiles a source and moves the artifact into the tree as it stands. -/
def compileAndMove (source : Path) : Action InstallError (Artifact × Path) := do
  let artifact ← i.compile source
  let dest ← i.moveArtifact artifact
  return (artifact, dest)

def provision : Action InstallError Unit :=
  (i.settings.tree.provision i.here).orFail .provision

/-- Builds one source. The tree is brought into shape after the compiler has succeeded. -/
def buildModule (source : Path) (install : Bool) : Action InstallError Built := do
  print (.stage "compile")
  let artifact ← i.compile source
  if install then
    i.provision
    print (.stage "install")
    let dest ← i.moveArtifact artifact
    return .installed artifact dest
  else return .compiled artifact

/-- Handles a file of a given kind. There is no outcome for one that is ignored. -/
def handle (path : Path) : ModuleKind → Action InstallError (Option Outcome)
  | .source => do
    match ← attempt (i.compileAndMove path) with
    | .ok (artifact, dest) => return some (.installed artifact dest)
    | .error e => return some (.failed e)
  | .precompiled => do
    let dest ← i.copyModule path
    return some (.copied dest)
  | .ignored => return none

/-- Handles a file by itself. -/
def installFile (path : Path) : Action InstallError (Option Outcome) :=
  i.handle path (i.settings.kindOf path)

/-! ## A directory -/

/-- The regular files of a directory, in the order of their names. Links are followed. -/
def listFiles (dir : Path) : Action InstallError (List Path) := do
  let names ← query (·.list i.here dir) (.file .list dir)
  ask fun files => (names.map dir.join).filter (files.isFile i.here)

/-- The name of a listed file as it is shown. -/
def listedName (path : Path) : String := Utf8.toText (path.fileName?.getD [])

/-- Handles one of the listed files, which are counted with the ignored ones among them. -/
def handleListed (total : Nat) (path : Path) (number : Nat) :
    Action InstallError (Option (String × Outcome)) := do
  let kind := i.settings.kindOf path
  if kind ≠ .ignored then print (.numbered number total (listedName path))
  match ← i.handle path kind with
  | none => return none
  | some outcome =>
    if let .failed e := outcome then print (.error e.message)
    return some (listedName path, outcome)

/-- Handles the listed files one after the other. -/
def handleAll (total : Nat) : List (Path × Nat) → Action InstallError (List (String × Outcome))
  | [] => return []
  | (path, number) :: rest => do
    let entry ← i.handleListed total path number
    let entries ← handleAll total rest
    return entry.toList ++ entries

/-- Installs the modules of a directory. -/
def installAll (dir : Path) : Action InstallError Report := do
  i.provision
  let files ← i.listFiles dir
  let entries ← i.handleAll files.length (files.zipIdx 1)
  return { entries }

end Installer

end ModuleInstall
