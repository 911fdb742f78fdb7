import ModuleInstall.FileSystem.Change

/-!
# Scenes

A scene is a file system told as a list of entries, each of which is put in its place in turn. What
cannot be made is left out, so that every scene has a file system.
-/

namespace ModuleInstall

/-- The path, its parent, the parent of that, and so on. The empty path and the root are not among
them. -/
def Path.ancestors (p : Path) : List Path :=
  go p.bytes.length p
where
  /-- At most so many of them as the path has bytes. -/
  go : Nat → Path → List Path
    | 0, _ => []
    | count + 1, p =>
      match p.parent? with
      | some dir => p :: go count dir
      | none => []

/-- One entry of a scene. -/
inductive SceneItem where
  | directory (p : Path)
  | file (p : Path) (content : Bytes)
  /-- A file that can be started. -/
  | program (p : Path) (content : Bytes)
  | link (p : Path) (target : Bytes)
  | fifo (p : Path)
  /-- Whatever lies there by now is taken away. -/
  | gap (p : Path)
  deriving DecidableEq, Repr

namespace FileSystem

/-- The file system after a call, which stays the same if the call fails. -/
def orSame (fs : FileSystem) (result : Except SystemError FileSystem) : FileSystem :=
  result.toOption.getD fs

/-- Makes the first directory of a list. If it has nowhere to stand, those behind it are made
first. -/
def makeChain (fs : FileSystem) (here : Location) : List Path → FileSystem
  | [] => fs
  | p :: above =>
    match fs.makeDirectory here p with
    | .ok fs' => fs'
    | .error (.code .noEntry) =>
      let below := fs.makeChain here above
      below.orSame (below.makeDirectory here p)
    | .error _ => fs

/-- Makes a directory and every missing one above it. -/
def makeDirectories (fs : FileSystem) (here : Location) (p : Path) : FileSystem :=
  fs.makeChain here p.ancestors

/-- Makes the directory that a path lies in. -/
def makeParent (fs : FileSystem) (here : Location) (p : Path) : FileSystem :=
  match p.parent? with
  | some dir => fs.makeDirectories here dir
  | none => fs

/-- Makes a symbolic link. A target has to be a path, but need not lead anywhere. -/
def makeLink (fs : FileSystem) (here : Location) (p : Path) (target : Bytes) :
    Except SystemError FileSystem :=
  match (Path.mk target).route with
  | .error e => .error e
  | .ok _ => fs.create here p (.link target)

/-- Takes away everything in a directory. -/
def clear (fs : FileSystem) (dir : Location) : FileSystem :=
  (fs.names dir).foldl (fun fs n => fs.erase (n :: dir)) fs

/-- Where somebody stands whose directory may be gone. Each directory of the location that is gone
gets the empty name, which nothing has, so that it stays gone if another one takes its place. -/
def standing (fs : FileSystem) : Location → Location
  | [] => []
  | n :: dir =>
    (if (fs.node? (n :: dir)).any Node.isDirectory then n else []) :: fs.standing dir

/-- Removes an empty directory. The path has to end in the name of its entry. -/
def removeEmpty (fs : FileSystem) (here : Location) (p : Path) : Except SystemError FileSystem :=
  match fs.walk .kept here p with
  | .error e => .error e
  | .ok (.directory _) => .error (.code .invalidArgument)
  | .ok (.entry dir n _) =>
    match fs.node? (n :: dir) with
    | none => .error (.code .noEntry)
    | some node =>
      if !node.isDirectory then .error (.code .notDirectory)
      else if fs.isFixed dir then .error (.code .accessDenied)
      else .ok (fs.erase (n :: dir))

/-- Lets a file be started, links followed. -/
def makeExecutable (fs : FileSystem) (here : Location) (p : Path) : FileSystem :=
  match fs.find .followed here p with
  | .ok (n :: dir, .file content _) => (fs.erase (n :: dir)).add dir n (.file content true)
  | _ => fs

end FileSystem

/-- What a scene has come to. -/
structure Scene where
  files : FileSystem
  /-- Why removals could not be finished. -/
  stuck : List SystemError := []

namespace Scene

/-- The scene after the last call of a removal. What is gone by then needs no removal. -/
def afterRemoval (s : Scene) : Except SystemError FileSystem → Scene
  | .ok files => { s with files }
  | .error (.code .noEntry) => s
  | .error e => { s with stuck := s.stuck ++ [e] }

/-- Removes an entry with all that lies below it. A link is removed and not followed, unless a slash
ends the path. Nothing happens if there is no such entry. The content of a directory goes first.
Then the path is walked once more, and has to name the entry of the directory, if it leads anywhere
by then. -/
def removeAll (s : Scene) (here : Location) (p : Path) : Scene :=
  match s.files.find .followedAtSlash here p with
  | .error _ => s
  | .ok (loc, node) =>
    if !node.isDirectory then s.afterRemoval (s.files.remove here p)
    else if s.files.isFixed loc then s.afterRemoval (.error (.code .accessDenied))
    else
      let cleared := s.files.clear loc
      { s with files := cleared }.afterRemoval (cleared.removeEmpty (cleared.standing here) p)

/-- Puts one entry in its place. -/
def put (s : Scene) (here : Location) : SceneItem → Scene
  | .directory p => { s with files := s.files.makeDirectories here p }
  | .file p content =>
    let fs := s.files.makeParent here p
    { s with files := fs.orSame (fs.write here p content) }
  | .program p content =>
    let fs := s.files.makeParent here p
    { s with files := (fs.orSame (fs.write here p content)).makeExecutable here p }
  | .link p target =>
    let fs := s.files.makeParent here p
    { s with files := fs.orSame (fs.makeLink here p target) }
  | .fifo p =>
    let fs := s.files.makeParent here p
    { s with files := fs.orSame (fs.create here p .fifo) }
  | .gap p => s.removeAll here p

end Scene

/-- Puts entries in their places one after the other. -/
def FileSystem.furnish (fs : FileSystem) (here : Location) (items : List SceneItem) : Scene :=
  items.foldl (fun s item => s.put here item) { files := fs }

end ModuleInstall
