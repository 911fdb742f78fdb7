import ModuleInstall.FileSystem.Route

/-!
# Walking a path

A link on the way is followed: its target is walked in place of the step. Whether a link at the end
is followed depends on the call.
-/

namespace ModuleInstall

/-- Where a walk ends. -/
inductive Place where
  /-- In a directory that the last step does not name. -/
  | directory (loc : Location)
  /-- At an entry of a directory. It may be missing. With a slash only a directory is meant. -/
  | entry (dir : Location) (n : Name) (slash : Bool)
  deriving DecidableEq, Repr

def Place.location : Place → Location
  | directory loc => loc
  | entry dir n _ => n :: dir

/-- When a link at the end of a path is followed. -/
inductive LastLink where
  | followed
  | followedAtSlash
  | followedUnlessSlash
  | kept
  deriving DecidableEq, Repr

/-- The link is followed, given that a slash ends the path or not. -/
def LastLink.follows : LastLink → Bool → Bool
  | followed, _ => true
  | followedAtSlash, slash => slash
  | followedUnlessSlash, slash => !slash
  | kept, _ => false

/-- The last name is not looked up at all, given that a slash ends the path or not. A call that
cannot mean a directory refuses the slash beforehand. -/
def LastLink.passesOver : LastLink → Bool → Bool
  | followedUnlessSlash, slash => slash
  | _, _ => false

namespace FileSystem

/-- What the steps up to the next link lead to. -/
inductive Stretch where
  | ends (place : Place)
  | meets (dir : Location) (target : Bytes) (rest : List Step)
  | fails (errno : Errno)
  deriving DecidableEq, Repr

/-- The steps from a directory up to the next link that is followed. -/
def stretch (fs : FileSystem) (last : LastLink) (slash : Bool) : Location → List Step → Stretch
  | loc, [] => .ends (.directory loc)
  | loc, .here :: rest => stretch fs last slash loc rest
  | loc, .up :: rest => stretch fs last slash loc.tail rest
  | loc, .name n :: rest =>
    if rest.isEmpty && last.passesOver slash then .ends (.entry loc n slash)
    else if Name.maxLength < n.length then .fails .nameTooLong
    else
      match fs.node? (n :: loc), rest with
      | some (.link target), [] =>
        if last.follows slash then .meets loc target [] else .ends (.entry loc n slash)
      | _, [] => .ends (.entry loc n slash)
      | some (.directory _), rest => stretch fs last slash (n :: loc) rest
      | some (.link target), rest => .meets loc target rest
      | some _, _ => .fails .notDirectory
      | none, _ => .fails .noEntry

/-- The number of links that a walk follows. -/
def maxLinks : Nat := 40

/-- A walk from a directory that may still follow `budget` links. A slash at the end of a target
counts if nothing comes after the target. -/
def walkFrom (fs : FileSystem) (last : LastLink) :
    (budget : Nat) → (slash : Bool) → Location → List Step → Except Errno Place
  | budget, slash, loc, steps =>
    match fs.stretch last slash loc steps, budget with
    | .ends place, _ => .ok place
    | .fails errno, _ => .error errno
    | .meets _ _ _, 0 => .error .tooManyLinks
    | .meets dir target rest, budget + 1 =>
      if target = [] then .error .noEntry
      else
        let route := Route.ofBytes target
        walkFrom fs last budget (if rest = [] then slash || route.slash else slash)
          (if route.fromRoot then [] else dir) (route.steps ++ rest)

/-- Where a path leads, seen from a current directory. -/
def walk (fs : FileSystem) (last : LastLink) (here : Location) (p : Path) :
    Except SystemError Place :=
  match p.route with
  | .error e => .error e
  | .ok route =>
    (fs.walkFrom last maxLinks route.slash (if route.fromRoot then [] else here)
      route.steps).mapError .code

end FileSystem

end ModuleInstall
