import ModuleInstall.Path.Basic
import ModuleInstall.SystemError
import ModuleInstall.FileSystem.Basic

/-! # Paths as the system walks them -/

namespace ModuleInstall

/-- One step of a walk. -/
inductive Step where
  /-- Stay. -/
  | here
  /-- Go to the directory above. At the root this is the root. -/
  | up
  /-- Go to an entry. -/
  | name (n : Name)
  deriving DecidableEq, Repr

/-- The step that a piece between slashes stands for. -/
def Step.ofPiece (piece : Bytes) : Step :=
  if piece = [Bytes.dot] then .here
  else if piece = [Bytes.dot, Bytes.dot] then .up
  else .name piece

/-- A path ready to be walked. -/
structure Route where
  /-- The walk starts at the root and not at the current directory. -/
  fromRoot : Bool
  steps : List Step
  /-- The path ends in a slash, so that it can only mean a directory. -/
  slash : Bool
  deriving DecidableEq, Repr

namespace Route

def ofBytes (bs : Bytes) : Route where
  fromRoot := bs.head? == some Bytes.slash
  steps :=
    let (first, others) := pieces Bytes.slash bs
    ((first :: others).filter (· ≠ [])).map Step.ofPiece
  slash := bs.getLast? == some Bytes.slash

/-- The last step is to an entry. -/
def endsInName (r : Route) : Bool :=
  match r.steps.getLast? with
  | some (.name _) => true
  | _ => false

/-- A path has to be shorter than this to be taken. -/
def maxLength : Nat := 4096

end Route

/-- The route of a path, unless the path is refused for its spelling alone. -/
def Path.route (p : Path) : Except SystemError Route :=
  if (0 : UInt8) ∈ p.bytes then .error .nulInPath
  else if p.bytes = [] then .error (.code .noEntry)
  else if Route.maxLength ≤ p.bytes.length then .error (.code .nameTooLong)
  else .ok (.ofBytes p.bytes)

end ModuleInstall
