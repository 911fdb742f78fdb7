import ModuleInstall.Failure
import ModuleInstall.Module.Kind

/-! # Outcomes and reports -/

namespace ModuleInstall

/-- What became of a module that was built by itself. -/
inductive Built where
  /-- The artifact stays beside the source. -/
  | compiled (artifact : Artifact)
  /-- The artifact was moved into the tree. -/
  | installed (artifact : Artifact) (dest : Path)
  deriving DecidableEq, Repr

/-- What became of a file in an installation. -/
inductive Outcome where
  /-- It was compiled, and the artifact was moved into the tree. -/
  | installed (artifact : Artifact) (dest : Path)
  /-- It was copied into the tree as it was. -/
  | copied (dest : Path)
  | failed (error : InstallError)
  deriving DecidableEq, Repr

namespace Outcome

def isInstalled : Outcome → Bool
  | installed _ _ => true
  | _ => false

def isCopied : Outcome → Bool
  | copied _ => true
  | _ => false

def error? : Outcome → Option InstallError
  | failed e => some e
  | _ => none

end Outcome

/-- What became of each module of a directory, in the order in which they were handled. -/
structure Report where
  entries : List (String × Outcome) := []
  deriving DecidableEq, Repr

namespace Report

def installed (r : Report) : Nat := r.entries.countP fun e => e.2.isInstalled

def copied (r : Report) : Nat := r.entries.countP fun e => e.2.isCopied

def failures (r : Report) : List (String × InstallError) :=
  r.entries.filterMap fun e => e.2.error?.map fun error => (e.1, error)

/-- The outcome of the first module of a name. -/
def outcome? (r : Report) (name : String) : Option Outcome := r.entries.lookup name

end Report

end ModuleInstall
