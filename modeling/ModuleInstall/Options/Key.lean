import ModuleInstall.Text.Utf8

/-! # What a command line can hold -/

namespace ModuleInstall

inductive Key where
  | file
  | install
  | home
  | compiler
  | release
  | classpath
  | directory
  | help
  | version
  deriving DecidableEq, Repr

/-- What a key takes. -/
inductive Shape where
  /-- No value. -/
  | flag
  /-- A path, which may be anything but empty. -/
  | path
  /-- Well-formed text. -/
  | text
  deriving DecidableEq, Repr

namespace Key

def shape : Key → Shape
  | install | help | version => .flag
  | file | home | directory => .path
  | compiler | release | classpath => .text

/-- The name after two dashes. The directory has none. -/
def long? : Key → Option String
  | file => some "file"
  | install => some "install"
  | home => some "home"
  | compiler => some "compiler"
  | release => some "release"
  | classpath => some "classpath"
  | directory => none
  | help => some "help"
  | version => some "version"

/-- The letter after one dash. -/
def short? : Key → Option Char
  | file => some 'f'
  | install => some 'i'
  | help => some 'h'
  | version => some 'V'
  | home | compiler | release | classpath | directory => none

/-- The environment variable that is taken if the key is not given. -/
def envName? : Key → Option String
  | home => some "JIL_HOME"
  | compiler => some "JIL_COMPILER"
  | release => some "JIL_RELEASE"
  | classpath => some "JIL_CLASSPATH"
  | file | install | directory | help | version => none

/-- How the key is called in a message. -/
def label : Key → String
  | file => "--file <FILE>"
  | install => "--install"
  | home => "--home <HOME>"
  | compiler => "--compiler <COMPILER>"
  | release => "--release <RELEASE>"
  | classpath => "--classpath <CLASSPATH>"
  | directory => "[DIR]"
  | help => "--help"
  | version => "--version"

end Key

/-- What one command takes. -/
structure Grammar where
  /-- The keys that go by a name, in the order in which their variables are looked at. -/
  named : List Key
  /-- The keys that go by their place. -/
  placed : List Key
  required : List Key
  deriving DecidableEq, Repr

namespace Grammar

/-- The key of a name after two dashes. -/
def byLong? (g : Grammar) (name : Bytes) : Option Key :=
  g.named.find? fun key => key.long?.map Utf8.encode == some name

/-- The key of a letter after one dash. -/
def byShort? (g : Grammar) (letter : UInt8) : Option Key :=
  g.named.find? fun key => key.short?.map (fun c => c.toNat) == some letter.toNat

end Grammar

end ModuleInstall
