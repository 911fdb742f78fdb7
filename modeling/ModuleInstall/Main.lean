import ModuleInstall.Command.BuildModule
import ModuleInstall.Command.InstallStdlib
import ModuleInstall.Rehearsal.SceneText

/-!
# The command line

The files are those of a scene that is read from the standard input, so that a run shows what would
happen and changes nothing.
-/

namespace ModuleInstall

/-- All of the standard input. -/
partial def readAll (input : IO.FS.Stream) (sofar : Bytes) : IO Bytes := do
  let chunk ← input.read 65536
  if chunk.isEmpty then return sofar else readAll input (sofar ++ chunk.toList)

/-- The variables that a command may ask for. -/
def readVariables : IO Variables := do
  let names := ["HOME", "NO_COLOR", "CLICOLOR_FORCE"] ++ settingKeys.filterMap Key.envName?
  let values ← names.mapM fun name => do return (name, (← IO.getEnv name).map Utf8.encode)
  return fun name => (values.lookup name).join

end ModuleInstall

open ModuleInstall in
def main (args : List String) : IO UInt32 := do
  match args with
  | name :: args =>
    match [Command.buildModule, Command.installStdlib].find? (·.name == name) with
    | some command =>
      let scene ← readAll (← IO.getStdin) []
      let finish := command.run
        { args := args.map Utf8.encode
          env := ← readVariables
          accountHome := none
          machine := Rehearsal.machine [⟨Utf8.encode "/bin"⟩] []
          here := [] }
        (FileSystem.empty.furnish [] (Rehearsal.sceneItems scene)).files
      IO.print (finish.session.text .output)
      IO.eprint (finish.session.text .error)
      return finish.code.toUInt32
    | none => do IO.eprintln ("unknown command: " ++ name); return 2
  | [] => do IO.eprintln "no command"; return 2
