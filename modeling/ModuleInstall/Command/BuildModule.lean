import ModuleInstall.Command.Basic

/-! # The command that builds one module -/

namespace ModuleInstall.Command

open ModuleInstall.Action

/-- What is told about a module that was built. -/
def builtText : Built → String
  | .installed _ dest => "installed " ++ dest.display
  | .compiled artifact => "compiled " ++ artifact.path.display

/-- The error of a build as the error of the command. -/
def buildError (file : Path) : InstallError → CommandError
  | .compile e => .compile e
  | e => .build file e

def buildWork (w : Surroundings) (s : Settings) (choices : Choices) :
    Action CommandError Unit := do
  let file : Path := ⟨(choices.value? .file).getD []⟩
  print (.action ("Building " ++ file.display))
  let built ← ((w.installer s).buildModule file (choices.value? .install).isSome).orFail
    (buildError file)
  print (.success (builtText built))

def buildModule : Command where
  name := "jil-build-module"
  about := some "Compile a jil stdlib module and optionally install it"
  version := "0.1.0"
  usage := "[OPTIONS] --file <FILE>"
  grammar :=
    { named := [.file, .install] ++ settingKeys ++ [.help, .version]
      placed := []
      required := [.file] }
  work := buildWork

end ModuleInstall.Command
