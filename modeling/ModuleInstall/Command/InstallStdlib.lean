import ModuleInstall.Command.Basic

/-! # The command that installs a directory -/

namespace ModuleInstall.Command

open ModuleInstall.Action

def tallyText (r : Report) : String :=
  toString r.installed ++ " compiled, " ++ toString r.copied ++ " copied"

/-- The last record of an installation. -/
def closing (r : Report) : Record :=
  match r.failures.map (·.1) with
  | [] => .success (tallyText r)
  | failed =>
    .warning (tallyText r ++ ", " ++ toString failed.length ++ " failed: " ++
      ", ".intercalate failed)

def installWork (w : Surroundings) (s : Settings) (choices : Choices) :
    Action CommandError Unit := do
  let dir : Path := ⟨(choices.value? .directory).getD [Bytes.dot]⟩
  print (.action ("Installing stdlib from " ++ dir.display ++ " into " ++ s.tree.std.display))
  let report ← ((w.installer s).installAll dir).orFail (.install dir)
  print (closing report)

def installStdlib : Command where
  name := "jil-install-stdlib"
  about := some "Build and install every jil stdlib module in a directory"
  version := "0.1.0"
  usage := "[OPTIONS] [DIR]"
  grammar :=
    { named := settingKeys ++ [.help, .version]
      placed := [.directory]
      required := [] }
  work := installWork

end ModuleInstall.Command
