import ModuleInstall.Path.Extension
import ModuleInstall.Settings

/-! # Kinds of modules -/

namespace ModuleInstall

/-- What an installation does with a file. -/
inductive ModuleKind where
  /-- Compile it and install what the compiler made. -/
  | source
  /-- Copy it unchanged. -/
  | precompiled
  /-- Leave it alone. -/
  | ignored
  deriving DecidableEq, Repr

/-- The stem and the extension of a path's file name. -/
def Path.stemAndExtension? (p : Path) : Option (Bytes × Bytes) :=
  match p.fileName? with
  | some n => if Utf8.isText n then splitAtLast Bytes.dot n else none
  | none => none

/-- The kind of a path. The extension is compared without regard to the case of ASCII letters, and
the source extension first. -/
def Settings.kindOf (s : Settings) (p : Path) : ModuleKind :=
  match p.stemAndExtension? with
  | none => .ignored
  | some (_, ext) =>
    if ext.sameIgnoringCase s.sourceExt then .source
    else if ext.sameIgnoringCase s.precompiledExt then .precompiled
    else .ignored

/-- A compiled module beside its source, and what the compiler said while it made it. -/
structure Artifact where
  path : Path
  notes : List String := []
  deriving DecidableEq, Repr

/-- Where the artifact of a source is expected. A name that splits at a dot keeps its stem. Any
other name gets the extension by the rule for paths, which is refused if it holds a slash. -/
def Settings.artifactPath (s : Settings) (source : Path) : Except Path.ExtensionFault Path :=
  match source.stemAndExtension? with
  | some (stem, _) => .ok (source.withFileName (stem ++ Bytes.dot :: s.compiledExt))
  | none => source.withExtension s.compiledExt

end ModuleInstall
