import ModuleInstall.Command.Basic
import ModuleInstall.Compile.Compiler
import ModuleInstall.Proofs.Listing
import ModuleInstall.Proofs.Turns
import ModuleInstall.Rehearsal.Compiler
import ModuleInstall.Rehearsal.Machine

/-!
# A small installation

The home directory is `home`, and what there is to compile lies in `w`.
-/

namespace ModuleInstall.Sample

open FileSystem ModuleInstall.Action

def path (text : String) : Path := ⟨Utf8.encode text⟩

def settings : Settings := { home := path "home" }

def installer : Installer :=
  { settings, compiler := Rehearsal.compiler [] settings [], here := [] }

/-- Writes one byte to the place of the artifact, or fails. -/
def writing (s : Settings) (here : Location) : Compiler := fun fs source =>
  match s.artifactPath source with
  | .error fault => { result := .error (.unnamable fault), files := fs }
  | .ok artifact =>
    match fs.write here artifact [0x2A] with
    | .error cause => { result := .error (.notStarted s.compiler cause), files := fs }
    | .ok files => { result := .ok { path := artifact }, files }

/-- The installation with a compiler that fails if it cannot write. -/
def writer : Installer := { settings, compiler := writing settings [], here := [] }

def machine : Machine := Rehearsal.machine [path "/bin"] []

/-- An installation that starts a program. Nothing but what is to be installed is relative. -/
def starter : Installer :=
  let settings : Settings := { home := path "/home" }
  { settings, compiler := machine.compiler settings [], here := [] }

def start (items : List SceneItem) : Session :=
  { files := (FileSystem.empty.furnish [] items).files }

/-- A source, and the tree. -/
def plain : Session :=
  start [.file (path "w/A.java") [0x61], .directory (path "home/jil/lib/std")]

/-- A source, and a tree in which the place of its module is a link to the place of its artifact. -/
def linked : Session :=
  start [.file (path "w/A.java") [0x61],
    .link (path "home/jil/lib/std/A.class") (Utf8.encode "../../../../w/A.class")]

/-- A source, a module, and something that is neither. -/
def mixed : Session :=
  start [.file (path "w/A.java") [0x61], .file (path "w/B.jil") [0x62], .file (path "w/C") [0x63],
    .directory (path "home")]

/-- A source and a module with directories in their way. -/
def crowded : Session :=
  start [.file (path "w/A.java") [0x61], .file (path "w/B.jil") [0x62],
    .directory (path "home/jil/lib/std/A.class"), .directory (path "home/jil/lib/std/B.jil")]

/-- A file, a link to it, a link that leads nowhere and one that leads to itself. -/
def stray : Session :=
  start [.file (path "f") [0x66], .link (path "jil") (Utf8.encode "f"),
    .link (path "gone") (Utf8.encode "nowhere"), .link (path "loop") (Utf8.encode "loop")]

/-- A tree whose first level is a link to a directory, and whose third is a link to itself. -/
def barred : Session :=
  start [.link (path "home/jil") (Utf8.encode "../real"),
    .link (path "real/lib/std") (Utf8.encode "std")]

/-- A source, the program that compiles it, and the tree. -/
def rooted : Session :=
  start [.program (path "/bin/javac") Rehearsal.mark, .file (path "/ww/A.java") [0x61],
    .directory (path "/home/jil/lib/std")]

/-- A machine on which the program that compiles fails, and says why on its standard output. -/
def refuser : Machine :=
  Rehearsal.machine [path "/bin"]
    [{ copy := false, output := Utf8.encode "no\n", errors := Utf8.encode " \n", ending := .exit 3 }]

/-- Somebody who is at home in `/home`. -/
def surroundings (machine : Machine) (args : List String) : Surroundings where
  args := args.map Utf8.encode
  env name := if name = "HOME" then some (Utf8.encode "/home") else none
  accountHome := none
  machine
  here := []

theorem eq_ok_of_toOption {ε α : Type} {x : Except ε α} {a : α} (h : x.toOption = some a) :
    x = .ok a := by
  cases x <;> simp_all [Except.toOption]

/-- Why a call failed, if it did. -/
def error? {ε α : Type} : Except ε α → Option ε
  | .ok _ => none
  | .error e => some e

theorem eq_error_of_error? {ε α : Type} {x : Except ε α} {e : ε} (h : error? x = some e) :
    x = .error e := by
  cases x <;> simp_all [error?]

/-- Why an action failed, if it did. -/
def failure? {ε α : Type} : EStateM.Result ε Session α → Option ε
  | .ok _ _ => none
  | .error e _ => some e

theorem eq_error_of_failure? {ε α : Type} {r : EStateM.Result ε Session α} {e : ε}
    (h : failure? r = some e) : r = .error e (after r) := by
  cases r <;> simp_all [failure?, after]

/-- A run over a directory that has its names in order. Sorting has nothing to do then, so that this
can be evaluated. -/
def sorted? (i : Installer) (dir : Path) (loc : Location) (s : Session) :
    Option (EStateM.Result InstallError Session Report) :=
  match i.provision s with
  | .error _ _ => none
  | .ok _ s₁ =>
    if (s₁.files.directoryAt i.here dir).toOption = some loc ∧
        (s₁.files.names loc).Pairwise fun a b => Bytes.le a b = true then
      let paths := ((s₁.files.names loc).map dir.join).filter (s₁.files.isFile i.here)
      match i.handleAll paths.length (paths.zipIdx 1) s₁ with
      | .ok entries t => some (.ok { entries } t)
      | .error e t => some (.error e t)
    else none

theorem installAll_of_sorted? {i : Installer} {dir : Path} {loc : Location} {s : Session}
    {r : EStateM.Result InstallError Session Report} (h : sorted? i dir loc s = some r) :
    i.installAll dir s = r := by
  unfold sorted? at h
  split at h
  · cases h
  rename_i s₁ hp
  split at h
  · rename_i hdir
    have hl := list_of_sorted (eq_ok_of_toOption hdir.1) hdir.2
    have hrun := Installer.run_installAll hp (Installer.listFiles_of_list hl)
    dsimp only at h
    split at h
    · rename_i entries t ha
      cases h
      rw [hrun, ha]
    · rename_i e t ha
      cases h
      rw [hrun, ha]
  · cases h

/-- How a run ends. -/
def ending : EStateM.Result InstallError Session Report → InstallError ⊕ List (String × Outcome)
  | .ok report _ => .inr report.entries
  | .error e _ => .inl e

/-- How a run over a directory that has its names in order ends. -/
def runSorted (i : Installer) (dir : Path) (loc : Location) (s : Session) :
    Option (InstallError ⊕ List (String × Outcome)) :=
  (sorted? i dir loc s).map ending

theorem runSorted_mixed :
    runSorted writer (path "w") [Utf8.encode "w"] mixed =
      some (.inr [("A.java", .installed { path := path "w/A.class" }
          (path "home/jil/lib/std/A.class")),
        ("B.jil", .copied (path "home/jil/lib/std/B.jil"))]) := by
  decide +kernel

theorem installAll_of_runSorted {i : Installer} {dir : Path} {loc : Location} {s : Session}
    {r : InstallError ⊕ List (String × Outcome)} (h : runSorted i dir loc s = some r) :
    ∃ s', i.installAll dir s =
      match r with
      | .inr entries => .ok { entries } s'
      | .inl e => .error e s' := by
  obtain ⟨result, hrun, rfl⟩ := Option.map_eq_some_iff.1 h
  rw [installAll_of_sorted? hrun]
  cases result with
  | ok report t => exact ⟨t, rfl⟩
  | error e t => exact ⟨t, rfl⟩

end ModuleInstall.Sample
