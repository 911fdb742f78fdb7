import ModuleInstall.FileSystem.Walk

/-! # Asking a file system -/

namespace ModuleInstall.FileSystem

/-- The node at a place. It has to be there, and a slash asks for a directory. -/
def nodeAt (fs : FileSystem) (place : Place) : Except SystemError Node :=
  match place, fs.node? place.location with
  | _, none => .error (.code .noEntry)
  | .entry _ _ true, some node =>
    if node.isDirectory then .ok node else .error (.code .notDirectory)
  | _, some node => .ok node

/-- The place and the node that a path leads to. -/
def find (fs : FileSystem) (last : LastLink) (here : Location) (p : Path) :
    Except SystemError (Location × Node) :=
  match fs.walk last here p with
  | .error e => .error e
  | .ok place => (fs.nodeAt place).map fun node => (place.location, node)

/-- What a path stands for, links followed. -/
def stat (fs : FileSystem) (here : Location) (p : Path) : Except SystemError Node :=
  (fs.find .followed here p).map (·.2)

/-- What the entry of a path is, be it a link. -/
def entryStat (fs : FileSystem) (here : Location) (p : Path) : Except SystemError Node :=
  (fs.find .followedAtSlash here p).map (·.2)

/-- The path stands for a directory. -/
def isDirectory (fs : FileSystem) (here : Location) (p : Path) : Bool :=
  match fs.stat here p with
  | .ok (.directory _) => true
  | _ => false

/-- The path stands for a regular file. -/
def isFile (fs : FileSystem) (here : Location) (p : Path) : Bool :=
  match fs.stat here p with
  | .ok (.file _ _) => true
  | _ => false

/-- The content of a file. A pipe has nobody at its other end, and `wouldBlock` stands for a call that
does not come back. -/
def read (fs : FileSystem) (here : Location) (p : Path) : Except SystemError Bytes :=
  match fs.stat here p with
  | .ok (.file content _) => .ok content
  | .ok (.directory _) => .error (.code .isDirectory)
  | .ok (.link _) => .error (.code .tooManyLinks)
  | .ok .fifo => .error (.code .wouldBlock)
  | .error e => .error e

/-- The directory that a path stands for. -/
def directoryAt (fs : FileSystem) (here : Location) (p : Path) : Except SystemError Location :=
  match fs.find .followed here p with
  | .ok (loc, .directory _) => .ok loc
  | .ok _ => .error (.code .notDirectory)
  | .error e => .error e

/-- The names in a directory, in the order of their bytes. -/
def list (fs : FileSystem) (here : Location) (p : Path) : Except SystemError (List Name) :=
  (fs.directoryAt here p).map fun loc => (fs.names loc).mergeSort Bytes.le

/-- The path from a directory down to a location below it. -/
def pathBelow? (dir loc : Location) : Option Bytes :=
  if dir <:+ loc then
    match (loc.take (loc.length - dir.length)).reverse with
    | [] => some []
    | first :: others => some (glue Bytes.slash first others)
  else none

/-- Everything below a directory, in the order of the bytes of its path from there. -/
def everythingBelow (fs : FileSystem) (dir : Location) : List (Bytes × Node) :=
  (fs.nodes.filterMap fun (loc, node) =>
    if loc = dir then none else (pathBelow? dir loc).map fun p => (p, node)).mergeSort
    fun a b => Bytes.le a.1 b.1

end ModuleInstall.FileSystem
