import ModuleInstall.Failure
import ModuleInstall.Pieces

/-! # Why a command failed -/

namespace ModuleInstall

inductive CommandError where
  | settings (error : SettingsError)
  | compile (error : CompileError)
  | build (file : Path) (error : InstallError)
  | install (dir : Path) (error : InstallError)
  deriving DecidableEq, Repr

namespace CommandError

/-- The text with spaces before each line but the first. -/
def hang (spaces : Nat) (text : String) : String :=
  let indent := List.replicate spaces ' '
  let (first, others) := pieces '\n' text.toList
  String.ofList (first ++ others.flatMap fun line => '\n' :: indent ++ line)

/-- One of several causes, with its number. The lines of a cause are flush with each other. -/
def numbered (number : Nat) (cause : String) : String :=
  "    " ++ toString number ++ ": " ++ hang 7 cause

/-- What was attempted, and why it failed. One cause alone goes without a number. -/
def withCauses (attempted : String) : List String → String
  | [] => "Error: " ++ attempted
  | [cause] => "Error: " ++ attempted ++ "\n\nCaused by:\n    " ++ hang 4 cause
  | causes =>
    "Error: " ++ attempted ++ "\n\nCaused by:\n" ++
      "\n".intercalate (causes.zipIdx.map fun (cause, number) => numbered number cause)

/-- An error of an installation, and the one that lies behind it. -/
def causes (e : InstallError) : List String :=
  e.message :: (e.cause?.map SystemError.message).toList

def message : CommandError → String
  | settings e => withCauses e.message []
  | compile e => e.message
  | build file e => withCauses ("failed to build " ++ file.display) (causes e)
  | install dir e => withCauses ("failed to install stdlib from " ++ dir.display) (causes e)

end CommandError

end ModuleInstall
