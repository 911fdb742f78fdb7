import ModuleInstall.FileSystem.Scene

/-! # Rules of a rehearsal -/

namespace ModuleInstall.Rehearsal

/-- The file names that a rule is for. -/
structure Cue where
  name : Option Bytes := none
  start : Option Bytes := none
  deriving DecidableEq, Repr

/-- A cue without any demand is for every name. -/
def Cue.isFor (c : Cue) (n : Bytes) : Bool :=
  match c.name, c.start with
  | none, none => true
  | name, start => name == some n || start.any (·.isPrefixOf n)

/-- Changes of files by path. -/
structure Edits where
  remove : List Bytes := []
  makeDirectories : List Bytes := []
  write : List (Bytes × Bytes) := []
  deriving DecidableEq, Repr

/-- Makes the changes, each that can be made, with paths seen from `base`. Somebody in the directory
`here` makes them, who stands in the location of the answer afterwards. -/
def Edits.apply (e : Edits) (fs : FileSystem) (here : Location) (base : Path) : Scene × Location :=
  let (s, here) := e.remove.foldl (fun ((s, here) : Scene × Location) p =>
    let s := s.removeAll here (base.join p)
    (s, s.files.standing here)) ({ files := fs }, here)
  let fs := e.makeDirectories.foldl (fun fs p => fs.makeDirectories here (base.join p)) s.files
  let fs := e.write.foldl (fun fs (p, content) =>
    fs.orSame (fs.write here (base.join p) content)) fs
  ({ s with files := fs }, here)

end ModuleInstall.Rehearsal
