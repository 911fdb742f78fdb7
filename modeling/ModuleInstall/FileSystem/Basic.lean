import ModuleInstall.Bytes

/-!
# File systems

A location is a list of names, the innermost first, so that the parent of `n :: dir` is `dir`, and
`[]` is the root, which is always a directory.
-/

namespace ModuleInstall

/-- The name of an entry in its directory. -/
abbrev Name := Bytes

/-- A place in a file system: the names on the way to it, the innermost first. -/
abbrev Location := List Name

/-- The longest name that a directory holds. -/
def Name.maxLength : Nat := 255

/-- A name that a directory can hold. -/
def Name.Proper (n : Name) : Prop :=
  n ≠ [] ∧ n ≠ [Bytes.dot] ∧ n ≠ [Bytes.dot, Bytes.dot] ∧ Bytes.slash ∉ n ∧ (0 : UInt8) ∉ n ∧
    n.length ≤ Name.maxLength

instance (n : Name) : Decidable n.Proper := by unfold Name.Proper; infer_instance

/-- What stands at a location. -/
inductive Node where
  /-- A directory. The entries of a fixed one can neither be added nor changed nor removed. -/
  | directory (fixed : Bool)
  /-- A regular file. -/
  | file (content : Bytes) (executable : Bool)
  /-- A symbolic link. -/
  | link (target : Bytes)
  /-- A named pipe. -/
  | fifo
  deriving DecidableEq, Repr

def Node.isDirectory : Node → Bool
  | directory _ => true
  | _ => false

/-- What a file system holds apart from its root. -/
abbrev Nodes := List (Location × Node)

namespace Nodes

/-- The node at a location, the root apart. -/
def get? (nodes : Nodes) (loc : Location) : Option Node := nodes.lookup loc

/-- The location is the root or that of a directory. -/
def hasDirectory (nodes : Nodes) (loc : Location) : Bool :=
  loc.isEmpty || (nodes.get? loc).any Node.isDirectory

/-- The promises of a file system. -/
structure Sound (nodes : Nodes) : Prop where
  nodup : (nodes.map Prod.fst).Nodup
  proper : ∀ e ∈ nodes, e.1 ≠ [] ∧ ∀ n ∈ e.1, Name.Proper n
  inDirectory : ∀ e ∈ nodes, nodes.hasDirectory e.1.tail = true

end Nodes

/-- A file system. -/
@[ext] structure FileSystem where
  nodes : Nodes
  sound : nodes.Sound

namespace FileSystem

/-- What stands at a location. -/
def node? (fs : FileSystem) : Location → Option Node
  | [] => some (.directory false)
  | n :: dir => fs.nodes.get? (n :: dir)

/-- The location is that of a directory. -/
def IsDirectory (fs : FileSystem) (loc : Location) : Prop := ∃ fixed, fs.node? loc = some (.directory fixed)

/-- The directory keeps its entries as they are. -/
def isFixed (fs : FileSystem) (dir : Location) : Bool := fs.node? dir == some (.directory true)

/-- The names in a directory, in no order that means anything. -/
def names (fs : FileSystem) (dir : Location) : List Name :=
  fs.nodes.filterMap fun e =>
    match e.1 with
    | n :: d => if d = dir then some n else none
    | [] => none

/-- The file system that has nothing but its root. -/
def empty : FileSystem := ⟨[], ⟨by simp, by simp, by simp⟩⟩

end FileSystem

end ModuleInstall
