import ModuleInstall.Settings

/-!
# The install tree

Installed modules lie in one flat directory, three levels below the home directory:

```text
<home>/jil/
<home>/jil/lib/
<home>/jil/lib/std/<module>
```
-/

namespace ModuleInstall

/-- The install tree, given by its topmost level. -/
structure Tree where
  root : Path
  deriving DecidableEq, Repr

namespace Tree

/-- The tree in a home directory. -/
def under (home : Path) : Tree := ⟨home.join (Utf8.encode "jil")⟩

/-- The second level. -/
def lib (t : Tree) : Path := t.root.join (Utf8.encode "lib")

/-- The third level, which holds the modules. -/
def std (t : Tree) : Path := t.lib.join (Utf8.encode "std")

/-- Every level, each after the one it lies in. -/
def levels (t : Tree) : List Path := [t.root, t.lib, t.std]

/-- Where a module of the given file name is installed. -/
def modulePath (t : Tree) (fileName : Bytes) : Path := t.std.join fileName

end Tree

/-- The tree that the settings point at. -/
def Settings.tree (s : Settings) : Tree := .under s.home

end ModuleInstall
