import ModuleInstall.Command.Error
import ModuleInstall.Install.Installer
import ModuleInstall.Settings.Choices

/-! # Commands -/

namespace ModuleInstall

/-- What a command finds when it starts. -/
structure Surroundings where
  args : List Bytes
  env : Variables
  accountHome : Option Path
  machine : Machine
  here : Location
  room : Room := .ample

/-- The installer that a command works with. -/
def Surroundings.installer (w : Surroundings) (settings : Settings) : Installer where
  settings
  compiler := w.machine.compiler settings w.here
  here := w.here
  room := w.room

/-- How a command ended. -/
structure Finish where
  code : UInt8
  session : Session

structure Command where
  name : String
  about : Option String
  version : String
  usage : String
  grammar : Grammar
  work : Surroundings → Settings → Choices → Action CommandError Unit

namespace Command

def usageLine (c : Command) : String := "Usage: " ++ c.name ++ " " ++ c.usage

def helpText (c : Command) : String :=
  (c.about.elim "" fun about => about ++ "\n\n") ++ c.usageLine

def versionText (c : Command) : String := c.name ++ " " ++ c.version

/-- Why a command does not get to its work. -/
def haltText (c : Command) (outlet : Outlet) : Halt → String
  | .fault fault =>
    outlet.textOf (⟨"error:", [.bold, .red]⟩ :: ⟨" ", []⟩ :: fault.parts) ++ "\n\n" ++ c.usageLine ++
      "\n\nFor more information, try '--help'."
  | .help => c.helpText
  | .version => c.versionText

/-- The streams of a command are taken for a terminal if the environment insists on it. -/
def outlet (env : Variables) : Outlet :=
  let isOn (name : String) (off : List Bytes) : Bool := !off.contains ((env name).getD [])
  if isOn "CLICOLOR_FORCE" [[], Utf8.encode "0"] && !isOn "NO_COLOR" [[]] then .terminal else .stream

/-- The end of a command that does not get to its work. -/
def halted (c : Command) (env : Variables) (halt : Halt) : UInt8 × Record :=
  let text := c.haltText (outlet env) halt
  match halt with
  | .fault _ => (2, .plain .error text)
  | .help | .version => (0, .plain .output text)

/-- The work of a command that knows its choices. -/
def workOn (c : Command) (w : Surroundings) (choices : Choices) : Action CommandError Unit :=
  match choices.settings (userHome? w.env w.accountHome) with
  | .error e => throw (.settings e)
  | .ok settings => c.work w settings choices

/-- Runs a command. -/
def run (c : Command) (w : Surroundings) (files : FileSystem) : Finish :=
  match Options.parse c.grammar w.env w.args with
  | .error halt =>
    let (code, record) := c.halted w.env halt
    { code, session := { files, events := [.printed record] } }
  | .ok choices =>
    match c.workOn w choices { files } with
    | .ok _ s => { code := 0, session := s }
    | .error e s => { code := 1, session := s.record [.printed (.plain .error e.message)] }

end Command

/-- The keys of the settings. -/
def settingKeys : List Key := [.home, .compiler, .release, .classpath]

end ModuleInstall
