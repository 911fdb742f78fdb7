import Mathlib.Logic.Function.Basic
import ModuleInstall.FileSystem.Basic
import ModuleInstall.Install.Report
import ModuleInstall.Proofs.Kinds
import ModuleInstall.Session
import ModuleInstall.Tree.Layout

/-!
# Two maps in place of the files

Names are taken one after the other, and files are moved between two maps, that of the directory and
that of the tree.
-/

namespace ModuleInstall

/-- The contents of the files of a directory and of the tree, by name. -/
@[ext]
structure TwoMaps where
  work : Name → Option Bytes
  std : Name → Option Bytes

/-- What a compiler answers for a source: why not, or what the artifact holds. -/
inductive Answer where
  | refuses (error : CompileError)
  | makes (notes : List String) (content : Bytes)

namespace TwoMaps

open Function (update)

variable (settings : Settings) (dir : Path) (blocked : Name → Bool) (answer : Name → Answer)

/-- A directory stands where a module is to be written. -/
def inTheWay (n : Name) : InstallError :=
  .file .write (settings.tree.modulePath n) (.code .isDirectory)

/-- Handles one name. A name is blocked if there is a directory of that name in the tree. -/
def handle (n : Name) (m : TwoMaps) : Except InstallError (Option Outcome × TwoMaps) :=
  match settings.kindOf (dir.join n) with
  | .ignored => .ok (none, m)
  | .precompiled =>
    if blocked n then .error (inTheWay settings n)
    else .ok (some (.copied (settings.tree.modulePath n)), { m with std := update m.std n (m.work n) })
  | .source =>
    match answer n with
    | .refuses e => .ok (some (.failed (.compile e)), m)
    | .makes notes content =>
      let a := settings.artifactName n
      if blocked a then
        .ok (some (.failed (inTheWay settings a)), { m with work := update m.work a (some content) })
      else
        let artifact := { path := (dir.join n).withFileName a, notes }
        .ok (some (.installed artifact (settings.tree.modulePath a)),
          { work := update m.work a none, std := update m.std a (some content) })

/-- What a run comes to. -/
structure Tally where
  entries : List (String × Outcome)
  maps : TwoMaps
  /-- The error that has ended the run, if one has. -/
  stop : Option InstallError

/-- Handles names one after the other. -/
def run : List Name → TwoMaps → Tally
  | [], m => { entries := [], maps := m, stop := none }
  | n :: rest, m =>
    match handle settings dir blocked answer n m with
    | .error e => { entries := [], maps := m, stop := some e }
    | .ok (outcome, m') =>
      let tally := run rest m'
      { tally with entries := (outcome.map fun o => (Utf8.toText n, o)).toList ++ tally.entries }

/-- The tally as the end of a run that leaves a session. -/
def Tally.result (tally : Tally) (s : Session) : EStateM.Result InstallError Session Report :=
  match tally.stop with
  | none => .ok { entries := tally.entries } s
  | some e => .error e s

variable {settings dir blocked} {answer other : Name → Answer} {n : Name} {m m' : TwoMaps}

theorem handle_congr (h : answer n = other n) :
    handle settings dir blocked answer n m = handle settings dir blocked other n m := by
  rw [handle, handle, h]

theorem run_congr {names : List Name} (h : ∀ n ∈ names, answer n = other n) :
    run settings dir blocked answer names m = run settings dir blocked other names m := by
  induction names generalizing m with
  | nil => rfl
  | cons n rest ih =>
    rw [List.forall_mem_cons] at h
    rw [run, run, handle_congr h.1]
    split
    · rfl
    · rw [ih h.2]

theorem handle_work {outcome : Option Outcome} {name : Name} (hs : settings.TellsApart)
    (hn : IsPiece n) (h : handle settings dir blocked answer n m = .ok (outcome, m'))
    (hk : settings.kindOf (dir.join name) ≠ .ignored) : m'.work name = m.work name := by
  unfold handle at h
  split at h
  · cases h
    rfl
  · split at h <;> cases h
    rfl
  · rename_i hsource
    have hne : name ≠ settings.artifactName n := by
      rintro rfl
      exact hk (Settings.kindOf_artifactName hs hn hsource)
    split at h
    · cases h
      rfl
    · dsimp only at h
      split at h <;> cases h <;> exact Function.update_of_ne hne _ _

end TwoMaps

end ModuleInstall
