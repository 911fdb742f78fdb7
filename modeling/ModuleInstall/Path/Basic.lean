import ModuleInstall.Bytes
import ModuleInstall.Pieces
import ModuleInstall.Text.Utf8

/-!
# Paths as they are spelled

Repeated slashes, a slash at the end and every `.` but a leading one have no meaning of their own,
and `..` is a component like any other.
-/

namespace ModuleInstall

/-- A path as it is written. Two spellings of one place are different paths. -/
structure Path where
  bytes : Bytes
  deriving DecidableEq, Repr

/-- A meaningful part of a path. -/
inductive Component where
  | root
  | here
  | up
  | name (bytes : Bytes)
  deriving DecidableEq, Repr

namespace Component

/-- The component that a piece between slashes stands for. -/
def ofPiece (piece : Bytes) : Component :=
  if piece = [Bytes.dot] then .here
  else if piece = [Bytes.dot, Bytes.dot] then .up
  else .name piece

end Component

namespace Path

open Bytes (slash dot)

/-- A piece that says nothing, unless it is the first of the path. -/
def silent (piece : Bytes) : Bool := piece = [] || piece = [dot]

/-- The pieces of a path after the first, without the silent ones at the end. -/
def tailPieces (p : Path) : List Bytes := dropTrailing silent (pieces slash p.bytes).2

/-- The path starts at the root of the file system. -/
def isAbsolute (p : Path) : Bool := p.bytes.head? == some slash

/-- The components of a path from left to right. -/
def components (p : Path) : List Component :=
  let (first, others) := pieces slash p.bytes
  let rest := (others.filter fun piece => !silent piece).map Component.ofPiece
  if first = [] then if others = [] then [] else .root :: rest
  else .ofPiece first :: rest

/-- Two spellings with the same components. -/
def Same (p q : Path) : Prop := p.components = q.components

instance (p q : Path) : Decidable (p.Same q) := inferInstanceAs (Decidable (_ = _))

/-- The pieces written out, where an empty first piece alone is the root. -/
def ofPieces (first : Bytes) (others : List Bytes) : Path :=
  if first = [] ∧ others = [] then ⟨[slash]⟩ else ⟨glue slash first others⟩

/-- The last component, and the path before it. The empty path and the root have none. -/
def splitLast (p : Path) : Option (Path × Component) :=
  let first := (pieces slash p.bytes).1
  match p.tailPieces.getLast? with
  | some last => some (ofPieces first (dropTrailing silent p.tailPieces.dropLast), .ofPiece last)
  | none => if first = [] then none else some (⟨[]⟩, .ofPiece first)

/-- The bytes before the last component, the slashes at their end included. -/
def lead (p : Path) : Bytes :=
  if p.tailPieces = [] then []
  else glue slash (pieces slash p.bytes).1 p.tailPieces.dropLast ++ [slash]

/-- The path without its last component. -/
def parent? (p : Path) : Option Path := p.splitLast.map (·.1)

/-- The last component, if it is a name. -/
def fileName? (p : Path) : Option Bytes :=
  match p.splitLast with
  | some (_, .name n) => some n
  | _ => none

/-- `q` seen from `p`: an absolute `q` stands for itself. -/
def join (p : Path) (q : Bytes) : Path :=
  if (Path.mk q).isAbsolute then ⟨q⟩
  else if p.bytes = [] ∨ p.bytes.getLast? = some slash then ⟨p.bytes ++ q⟩
  else ⟨p.bytes ++ slash :: q⟩

/-- The path with another file name in place of its own, or after it if it has none. -/
def withFileName (p : Path) (n : Bytes) : Path :=
  match p.fileName?, p.parent? with
  | some _, some dir => dir.join n
  | _, _ => p.join n

/-- The path as text for a message: ill-formed bytes become U+FFFD. -/
def display (p : Path) : String := Utf8.toText p.bytes

end Path

end ModuleInstall
