import ModuleInstall.SystemError
import ModuleInstall.Path.Extension

/-! # Failures -/

namespace ModuleInstall

/-- A level of the install tree could not be made a directory. -/
inductive ProvisionError where
  | create (path : Path) (cause : SystemError)
  | remove (path : Path) (cause : SystemError)
  deriving DecidableEq, Repr

namespace ProvisionError

def path : ProvisionError → Path
  | create p _ => p
  | remove p _ => p

def cause : ProvisionError → SystemError
  | create _ e => e
  | remove _ e => e

def message : ProvisionError → String
  | create p e => "cannot create directory " ++ p.display ++ ": " ++ e.message
  | remove p e =>
    "cannot remove " ++ p.display ++ " to make room for a directory: " ++ e.message

end ProvisionError

/-- A source could not be compiled. -/
inductive CompileError where
  /-- The compiler ended without success. There is no code if a signal ended it. -/
  | failed (program : String) (file : Path) (code : Option Int) (diagnostic : String)
  | notStarted (program : String) (cause : SystemError)
  /-- The settings name no artifact for this source. -/
  | unnamable (fault : Path.ExtensionFault)
  deriving DecidableEq, Repr

namespace CompileError

/-- An exit code as it is shown, or that there is none. -/
def codeText : Option Int → String
  | some n => "Some(" ++ toString n ++ ")"
  | none => "None"

def message : CompileError → String
  | failed program file code diagnostic =>
    program ++ " failed on " ++ file.display ++ " (exit code: " ++ codeText code ++ ")\n" ++
      diagnostic
  | notStarted program e => "failed to start " ++ program ++ ": " ++ e.message
  | unnamable fault => fault.message

def cause? : CompileError → Option SystemError
  | notStarted _ e => some e
  | _ => none

end CompileError

/-- The step of an installation that failed on a file. -/
inductive FileTask where
  | read
  | write
  | remove
  | list
  | place
  /-- A step that is none of these, by what it is called. -/
  | other (words : String)
  deriving DecidableEq, Repr

def FileTask.words : FileTask → String
  | read => "read"
  | write => "write"
  | remove => "remove"
  | list => "read directory"
  | place => "install"
  | other words => words

/-- Anything that can go wrong in an installation. -/
inductive InstallError where
  | provision (error : ProvisionError)
  | compile (error : CompileError)
  | file (task : FileTask) (path : Path) (cause : SystemError)
  deriving DecidableEq, Repr

namespace InstallError

def message : InstallError → String
  | provision e => e.message
  | compile e => e.message
  | file task p e => task.words ++ " " ++ p.display ++ ": " ++ e.message

def cause? : InstallError → Option SystemError
  | provision e => some e.cause
  | compile e => e.cause?
  | file _ _ e => some e

end InstallError

/-- The settings could not be resolved. -/
inductive SettingsError where
  | noHome
  deriving DecidableEq, Repr

def SettingsError.message : SettingsError → String
  | noHome => "cannot determine the home directory; set JIL_HOME or pass --home"

end ModuleInstall
