import ModuleInstall.Compile.Interpreter
import ModuleInstall.Compile.Invocation
import ModuleInstall.FileSystem.Query

/-!
# Starting programs

A program name with a slash is a path, taken in the directory where the program will run. Any other
name is looked for in the directories of the search path, one after the other.
-/

namespace ModuleInstall

/-- How a program came to its end. -/
inductive Ending where
  | exit (code : UInt8)
  | signal (number : Nat)
  deriving DecidableEq, Repr

namespace Ending

/-- The exit code, if there is one. -/
def code? : Ending → Option Int
  | exit code => some code.toNat
  | signal _ => none

def succeeded : Ending → Bool
  | exit code => code == 0
  | signal _ => false

end Ending

/-- What a program leaves behind. -/
structure Trace where
  ending : Ending
  /-- What it wrote to its standard output. -/
  output : Bytes
  /-- What it wrote to its standard error stream. -/
  errors : Bytes
  files : FileSystem

/-- A program runs in a directory, with arguments, among files. -/
abbrev Program := (directory : Location) → (args : List Bytes) → FileSystem → Trace

structure Machine where
  searchPath : List Path
  /-- What the content of an executable file does, if the machine can make anything of it. -/
  load : Bytes → Option Program

/-- A program with the arguments that it gets. -/
structure Launch where
  program : Program
  args : List Bytes

namespace Machine

/-- The content of the file at a path, which may be started. -/
def executableAt (fs : FileSystem) (directory : Location) (p : Path) : Except SystemError Bytes :=
  match fs.stat directory p with
  | .error e => .error e
  | .ok (.file content true) => .ok content
  | .ok _ => .error (.code .accessDenied)

/-- Starts a file with a given content, of which the machine makes a program, or which names an
interpreter. The interpreter gets its option and the path of the file in front of the arguments. It
can have an interpreter itself, but there is a limit to the number of files. -/
def launch (m : Machine) (fs : FileSystem) (directory : Location) :
    (limit : Nat) → Path → (content : Bytes) → (args : List Bytes) → Except SystemError Launch
  | 0, _, _, _ => .error (.code .tooManyLinks)
  | limit + 1, p, content, args =>
    match m.load content, Interpreter.ofContent? content with
    | some program, _ => .ok { program, args }
    | none, none => .error (.code .execFormat)
    | none, some i =>
      match executableAt fs directory i.path with
      | .error e => .error e
      | .ok next => m.launch fs directory limit i.path next (i.option.toList ++ p.bytes :: args)

/-- The largest number of files that one program is started by. -/
def maxFiles : Nat := 6

/-- An argument has to be shorter than this to be passed on. -/
def maxArgument : Nat := 131072

/-- Starts the file at a path. The arguments are looked at when the file has been found. -/
def launchAt (m : Machine) (fs : FileSystem) (directory : Location) (args : List Bytes) (p : Path) :
    Except SystemError Launch :=
  match executableAt fs directory p with
  | .error e => .error e
  | .ok content =>
    if args.any fun a => maxArgument ≤ a.length then .error (.code .argumentListTooLong)
    else m.launch fs directory maxFiles p content args

/-- Starts the first file of a name in a list of directories. A directory without the name is passed
over, and so is one where something is missing that the file needs. A file that may not be started
is passed over, too, but remembered if no other one is found. -/
def launchIn (m : Machine) (fs : FileSystem) (directory : Location) (args : List Bytes) (n : Bytes)
    (denied : Bool) : List Path → Except SystemError Launch
  | [] => .error (.code (if denied then .accessDenied else .noEntry))
  | dir :: rest =>
    match m.launchAt fs directory args (dir.join n) with
    | .error (.code .accessDenied) => m.launchIn fs directory args n true rest
    | .error (.code .noEntry) | .error (.code .notDirectory) =>
      m.launchIn fs directory args n denied rest
    | answer => answer

/-- Starts the file that a program name stands for in a directory. -/
def launchNamed (m : Machine) (fs : FileSystem) (directory : Location) (args : List Bytes)
    (n : Bytes) : Except SystemError Launch :=
  if n = [] then .error (.code .noEntry)
  else if Bytes.slash ∈ n then m.launchAt fs directory args ⟨n⟩
  else if Name.maxLength < n.length then .error (.code .nameTooLong)
  else m.launchIn fs directory args n false m.searchPath

/-- The directory where an invocation runs. -/
def directoryOf (here : Location) (i : Invocation) (fs : FileSystem) :
    Except SystemError Location :=
  match i.directory with
  | some dir => fs.directoryAt here dir
  | none => .ok here

/-- The program of an invocation, ready to run, and the directory where it runs. -/
def start (m : Machine) (here : Location) (i : Invocation) (fs : FileSystem) :
    Except SystemError (Location × Launch) :=
  if i.Passable then
    match directoryOf here i fs with
    | .error e => .error e
    | .ok directory =>
      (m.launchNamed fs directory i.args i.program).map fun launch => (directory, launch)
  else .error .nulInArgument

end Machine

end ModuleInstall
