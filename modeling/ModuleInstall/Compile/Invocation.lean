import ModuleInstall.Settings

/-! # The command line of the compiler -/

namespace ModuleInstall

/-- A program that is to be started. -/
structure Invocation where
  program : Bytes
  args : List Bytes
  /-- Where the program runs, if not in the current directory. -/
  directory : Option Path
  deriving DecidableEq, Repr

namespace Invocation

/-- No word holds a NUL byte, which would end it for the system. -/
def Passable (i : Invocation) : Prop :=
  (0 : UInt8) ∉ i.program ∧ (∀ a ∈ i.args, (0 : UInt8) ∉ a) ∧ ∀ d ∈ i.directory, (0 : UInt8) ∉ d.bytes

instance (i : Invocation) : Decidable i.Passable := by unfold Passable; infer_instance

/-- A word as it is shown. One that cannot be passed on is not shown. -/
def shownWord (word : Bytes) : Bytes :=
  if (0 : UInt8) ∈ word then Utf8.encode "<string-with-nul>" else word

/-- The invocation as it is shown. -/
def shown (i : Invocation) : Invocation where
  program := shownWord i.program
  args := i.args.map shownWord
  directory := i.directory.map fun d => ⟨shownWord d.bytes⟩

end Invocation

/-- The command line that compiles a source. A path without a file name is passed on whole. -/
def Settings.invocation (s : Settings) (source : Path) : Invocation where
  program := Utf8.encode s.compiler
  args := [source.fileName?.getD source.bytes, Utf8.encode "--release", Utf8.encode s.release,
    Utf8.encode "-cp", Utf8.encode s.classpath]
  directory := source.parent?.filter fun dir => dir.bytes ≠ []

end ModuleInstall
