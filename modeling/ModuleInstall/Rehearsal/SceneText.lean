import ModuleInstall.FileSystem.Scene
import ModuleInstall.Rehearsal.Machine

/-! # Scenes written as text -/

namespace ModuleInstall.Rehearsal

/-- The entry on a line. -/
def sceneItem? (line : Bytes) : Option SceneItem :=
  let (word, rest) := splitAtFirst 0x20 line
  let (path, tail) := splitAtFirst 0x20 (rest.getD [])
  let p : Path := ⟨path⟩
  match Utf8.toText word, tail with
  | "dir", none => some (.directory p)
  | "file", tail => some (.file p (tail.getD []))
  | "program", none => some (.program p mark)
  | "link", some target => some (.link p target)
  | "fifo", none => some (.fifo p)
  | _, _ => none

/-- The entries of a text. A line that is none is left out. -/
def sceneItems (text : Bytes) : List SceneItem :=
  let (first, others) := pieces 0x0A text
  (first :: others).filterMap sceneItem?

end ModuleInstall.Rehearsal
