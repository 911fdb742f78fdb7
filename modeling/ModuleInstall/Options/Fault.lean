import ModuleInstall.Console
import ModuleInstall.Options.Key
import ModuleInstall.Text.Terminal

/-! # Why a command line is not acted on -/

namespace ModuleInstall

inductive UsageFault where
  /-- Something that the command does not know. -/
  | unknown (shown : String)
  | valueMissing (key : Key)
  | valueUnwanted (key : Key) (value : Bytes)
  | repeated (key : Key)
  | notText
  | missing (keys : List Key)
  deriving DecidableEq, Repr

/-- The command line ends the command before its work. -/
inductive Halt where
  | fault (fault : UsageFault)
  | help
  | version
  deriving DecidableEq, Repr

/-- A part of a complaint, and how it stands out. -/
structure Part where
  text : String
  looks : List Look := []
  deriving DecidableEq, Repr

/-- Where a complaint goes. What the user wrote may hold control sequences. -/
inductive Outlet where
  /-- A text without looks and control sequences. -/
  | text
  /-- A stream that leaves out looks and control sequences as they pass. -/
  | stream
  /-- A stream that leaves out nothing. -/
  | terminal
  deriving DecidableEq, Repr

def Part.shown (outlet : Outlet) (p : Part) : String :=
  match outlet with
  | .text => Terminal.plain .dropped p.text
  | .stream => Terminal.plain .resumed p.text
  | .terminal => Look.applyAll p.looks p.text

/-- What a list of parts reads like. -/
def Outlet.textOf (outlet : Outlet) (parts : List Part) : String :=
  String.join (parts.map (Part.shown outlet))

/-- What is wrong, in words. -/
def UsageFault.parts : UsageFault → List Part
  | unknown shown => [⟨"unexpected argument '", []⟩, ⟨shown, [.yellow]⟩, ⟨"' found", []⟩]
  | valueMissing key =>
    [⟨"a value is required for '", []⟩, ⟨key.label, [.yellow]⟩, ⟨"' but none was supplied", []⟩]
  | valueUnwanted key value =>
    [⟨"unexpected value '", []⟩, ⟨Utf8.toText value, [.yellow]⟩, ⟨"' for '", []⟩,
      ⟨key.label, [.bold]⟩, ⟨"' found; no more were expected", []⟩]
  | repeated key =>
    [⟨"the argument '", []⟩, ⟨key.label, [.yellow]⟩, ⟨"' cannot be used multiple times", []⟩]
  | notText => [⟨"invalid UTF-8 was detected in one or more arguments", []⟩]
  | missing _ => [⟨"the following required arguments were not provided:", []⟩]

end ModuleInstall
