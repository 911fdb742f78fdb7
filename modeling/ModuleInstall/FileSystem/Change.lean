import ModuleInstall.FileSystem.Query
import ModuleInstall.FileSystem.Entry

/-! # Changing a file system -/

namespace ModuleInstall

/-- How many bytes of a content a file takes that has just been emptied. -/
abbrev Room := FileSystem → Bytes → Nat

/-- Room for everything. -/
def Room.ample : Room := fun _ content => content.length

namespace FileSystem

/-- A new entry, if its directory is there and has none of that name. In a fixed directory there is
nothing but what is there. -/
def insert (fs : FileSystem) (dir : Location) (n : Name) (node : Node) :
    Except SystemError FileSystem :=
  if fs.Admits dir n ∧ fs.isFixed dir = false then .ok (fs.add dir n node)
  else .error (.code .noEntry)

/-- Makes an entry at a path that must be free. A slash at its end is for directories only. -/
def create (fs : FileSystem) (here : Location) (p : Path) (node : Node) :
    Except SystemError FileSystem :=
  match fs.walk .kept here p with
  | .error e => .error e
  | .ok (.directory _) => .error (.code .alreadyExists)
  | .ok (.entry dir n slash) =>
    if (fs.node? (n :: dir)).isSome then .error (.code .alreadyExists)
    else if slash && !node.isDirectory then .error (.code .noEntry)
    else fs.insert dir n node

/-- Makes an empty directory. -/
def makeDirectory (fs : FileSystem) (here : Location) (p : Path) : Except SystemError FileSystem :=
  fs.create here p (.directory false)

/-- Removes an entry that is not a directory. A link is removed and not followed. -/
def remove (fs : FileSystem) (here : Location) (p : Path) : Except SystemError FileSystem :=
  match fs.walk .kept here p with
  | .error e => .error e
  | .ok (.directory _) => .error (.code .isDirectory)
  | .ok (.entry dir n slash) =>
    match fs.node? (n :: dir) with
    | none => .error (.code .noEntry)
    | some node =>
      if node.isDirectory then .error (.code .isDirectory)
      else if slash then .error (.code .notDirectory)
      else if fs.isFixed dir then .error (.code .accessDenied)
      else .ok (fs.erase (n :: dir))

/-- Writes a file with a content that there is room for. One that is there keeps its place and loses
its content. One that is missing is made, also where a link leads to it. A pipe has nobody at its
other end, and `wouldBlock` stands for a call that does not come back. -/
def write (fs : FileSystem) (here : Location) (p : Path) (content : Bytes) :
    Except SystemError FileSystem :=
  match fs.walk .followedUnlessSlash here p with
  | .error e => .error e
  | .ok (.directory _) => .error (.code .isDirectory)
  | .ok (.entry _ _ true) => .error (.code .isDirectory)
  | .ok (.entry dir n false) =>
    match fs.node? (n :: dir) with
    | none => fs.insert dir n (.file content false)
    | some (.file _ _) =>
      if fs.isFixed dir then .error (.code .accessDenied)
      else .ok (fs.setContent (n :: dir) content)
    | some (.directory _) => .error (.code .isDirectory)
    | some (.link _) => .error (.code .tooManyLinks)
    | some .fifo => .error (.code .wouldBlock)

/-- What is taken of a content. The file is emptied first, so that its old bytes make room. -/
def taken (fs : FileSystem) (room : Room) (here : Location) (p : Path) (content : Bytes) : Bytes :=
  match fs.write here p [] with
  | .ok emptied => content.take (room emptied content)
  | .error _ => content

/-- There is not room for all of a content, and the file is left with what was taken. -/
def FallsShort (fs : FileSystem) (room : Room) (here : Location) (p : Path) (content : Bytes)
    (fs' : FileSystem) : Prop :=
  fs.taken room here p content ≠ content ∧
    fs.write here p (fs.taken room here p content) = .ok fs'

variable {fs : FileSystem} {room : Room} {here : Location} {p : Path} {content : Bytes}
  {cause : SystemError}

theorem taken_isPrefix : fs.taken room here p content <+: content := by
  unfold taken
  split
  · exact List.take_prefix _ _
  · exact List.prefix_refl _

@[simp] theorem taken_ample : fs.taken .ample here p content = content := by
  unfold taken
  split
  · exact List.take_length
  · rfl

theorem write_error_congr (h : fs.write here p content = .error cause) (content' : Bytes) :
    fs.write here p content' = .error cause := by
  unfold write at h ⊢
  split at h
  · exact h
  · exact h
  · exact h
  split at h
  · unfold insert at h ⊢
    split at h
    · cases h
    · rename_i hn
      rw [if_neg hn]
      exact h
  · split at h
    · rename_i hfixed
      rw [if_pos hfixed]
      exact h
    · cases h
  all_goals exact h

end FileSystem

end ModuleInstall
