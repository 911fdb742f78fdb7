import ModuleInstall.Path.Basic
import ModuleInstall.Text.Quoted

/-! # Another extension for a path -/

namespace ModuleInstall

/-- The stem of a file name: what stands before its last dot, or the whole of it if there is no dot
but a leading one. -/
def nameStem (n : Bytes) : Bytes :=
  match splitAtLast Bytes.dot n with
  | some (stem, _) => if stem = [] then n else stem
  | none => n

/-- The extension of a file name, without its dot. -/
def nameExtension (n : Bytes) : Bytes :=
  match splitAtLast Bytes.dot n with
  | some (stem, ext) => if stem = [] then [] else ext
  | none => []

namespace Path

/-- Why an extension was refused. -/
inductive ExtensionFault where
  | holdsSlash (ext : Bytes)
  deriving DecidableEq, Repr

def ExtensionFault.message : ExtensionFault → String
  | .holdsSlash ext => "extension cannot contain path separators: " ++ Quoted.quote (Utf8.toText ext)

/-- The path less as many bytes at its end as its extension has. -/
def withoutExtension (p : Path) : Path :=
  ⟨p.bytes.take (p.bytes.length - (nameExtension (p.fileName?.getD [])).length)⟩

/-- The path with another extension. A path without a file name stays as it is, also if it is the
old extension that leaves `..` behind. An empty extension only takes the old one away. -/
def withExtension (p : Path) (ext : Bytes) : Except ExtensionFault Path :=
  if Bytes.slash ∈ ext then .error (.holdsSlash ext)
  else
    let bare := p.withoutExtension
    match bare.fileName? with
    | some n => .ok ⟨bare.lead ++ nameStem n ++ (if ext = [] then [] else Bytes.dot :: ext)⟩
    | none => .ok bare

end Path

end ModuleInstall
