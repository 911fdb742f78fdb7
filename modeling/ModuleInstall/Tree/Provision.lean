import ModuleInstall.Failure
import ModuleInstall.Session
import ModuleInstall.Tree.Layout

/-! # Bringing the tree into shape -/

namespace ModuleInstall

open ModuleInstall.Action

/-- Removes what is not a directory to make room for one. -/
def clearTheWay (here : Location) (p : Path) : Action ProvisionError Unit := do
  print (.warning (p.display ++ " is not a directory, replacing it"))
  change (·.remove here p) (.remove p)

def makeLevel (here : Location) (p : Path) : Action ProvisionError Unit := do
  print (.detail ("mkdir " ++ p.display))
  change (·.makeDirectory here p) (.create p)

/-- Makes sure that a path is a directory. A link that leads nowhere counts as standing in the way.
The parent has to be there. -/
def ensureDirectory (here : Location) (p : Path) : Action ProvisionError Unit := do
  match ← ask (·.stat here p) with
  | .ok (.directory _) => pure ()
  | .ok _ =>
    clearTheWay here p
    makeLevel here p
  | .error (.code .noEntry) =>
    if ← ask fun files => (files.entryStat here p).toBool then clearTheWay here p
    makeLevel here p
  | .error e => throw (.create p e)

/-- Makes sure of every level. -/
def Tree.provision (here : Location) (t : Tree) : Action ProvisionError Unit :=
  t.levels.forM (ensureDirectory here)

end ModuleInstall
