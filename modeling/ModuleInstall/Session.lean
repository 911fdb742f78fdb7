import ModuleInstall.Console
import ModuleInstall.FileSystem.Change

/-! # Sessions -/

namespace ModuleInstall

/-- Something that happened. -/
inductive Event where
  | printed (record : Record)
  /-- A compiler was asked to compile a source. -/
  | asked (source : Path)
  /-- A program was started in a directory. -/
  | started (directory : Location) (args : List Bytes)
  deriving DecidableEq, Repr

namespace Event

def record? : Event → Option Record
  | printed record => some record
  | _ => none

def asked? : Event → Option Path
  | asked source => some source
  | _ => none

def started? : Event → Option (Location × List Bytes)
  | started directory args => some (directory, args)
  | _ => none

end Event

/-- The files, and the events so far in the order in which they happened. -/
structure Session where
  files : FileSystem
  events : List Event := []

namespace Session

def record (s : Session) (events : List Event) : Session :=
  { s with events := s.events ++ events }

/-- What has been printed on a stream. -/
def text (s : Session) (stream : Stream) : String :=
  stream.text (s.events.filterMap Event.record?)

end Session

/-- A step in a session that can fail. -/
abbrev Action (ε α : Type) := EStateM ε Session α

namespace Action

variable {ε δ α : Type}

def print (record : Record) : Action ε Unit := fun s => .ok () (s.record [.printed record])

/-- The answer of the file system as it stands. -/
def ask (question : FileSystem → α) : Action ε α := fun s => .ok (question s.files) s

/-- The answer to a call that changes nothing. -/
def query (call : FileSystem → Except SystemError α) (onError : SystemError → ε) : Action ε α :=
  fun s =>
    match call s.files with
    | .ok a => .ok a s
    | .error e => .error (onError e) s

/-- A call that changes the file system, unless it fails. -/
def change (call : FileSystem → Except SystemError FileSystem) (onError : SystemError → ε) :
    Action ε Unit := fun s =>
  match call s.files with
  | .ok files => .ok () { s with files }
  | .error e => .error (onError e) s

/-- Writes a file. If there is not room for all of the content, the old bytes are gone and the file
holds what was taken. -/
def save (room : Room) (here : Location) (p : Path) (content : Bytes)
    (onError : SystemError → ε) : Action ε Unit := do
  let taken ← ask (·.taken room here p content)
  change (·.write here p taken) onError
  if taken ≠ content then throw (onError (.code .noSpace))

/-- The action with its error told in other words. -/
def orFail (action : Action δ α) (onError : δ → ε) : Action ε α := fun s =>
  match action s with
  | .ok a s' => .ok a s'
  | .error e s' => .error (onError e) s'

/-- The action with its error as a value. -/
def attempt (action : Action δ α) : Action ε (Except δ α) := fun s =>
  match action s with
  | .ok a s' => .ok (.ok a) s'
  | .error e s' => .ok (.error e) s'

end Action

end ModuleInstall
