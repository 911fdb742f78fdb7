/-! # Text without control sequences -/

namespace ModuleInstall.Terminal

/-- What the next character belongs to. -/
inductive Phase where
  | text
  /-- An escape has been read, and what it starts is not known. -/
  | escape
  /-- An escape and a first character that needs another one. -/
  | intermediate
  /-- A control sequence, which ends with a letter or the like. -/
  | control
  /-- A command to the system, which ends with a bell. -/
  | command
  /-- A message to a device, of which nothing has been read. -/
  | device
  /-- The numbers in front of a message to a device. -/
  | deviceNumbers
  /-- A message to a device with its last character before the content still to come. -/
  | deviceIntermediate
  /-- The content of a message. -/
  | message
  deriving DecidableEq, Repr

/-- A control that moves on to a new place or line. -/
def isMove (c : Char) : Bool := c = '\t' || c = '\n' || c = '\x0c' || c = '\r'

/-- The character stands between two others, both included. -/
def isWithin (low high c : Char) : Bool := low ≤ c && c ≤ high

/-- One of the bytes of the character ends a message. -/
def endsMessage (c : Char) : Bool := (String.utf8EncodeChar c).contains 0x9C

namespace Phase

/-- The character is kept. -/
def shows : Phase → Char → Bool
  | text, c => isMove c || (' ' ≤ c && c ≠ '\x7f')
  | escape, c | intermediate, c | control, c => isMove c
  | _, _ => false

/-- What an escape starts. -/
def start (c : Char) : Phase :=
  if isWithin ' ' '/' c then intermediate
  else
    match c with
    | '[' => control
    | ']' => command
    | 'P' => device
    | 'X' | '^' | '_' => message
    | c => if isWithin '0' '~' c then text else escape

/-- What a character that neither is kept nor breaks off leads to. -/
def proceed : Phase → Char → Phase
  | text, _ => text
  | escape, c => start c
  | intermediate, c => if isWithin '0' '~' c then text else intermediate
  | control, c => if isWithin '@' '~' c then text else control
  | command, c => if c = '\x07' then text else command
  | device, c =>
    if isWithin ' ' '/' c then deviceIntermediate
    else if isWithin '0' '?' c then deviceNumbers
    else if isWithin '@' '~' c then message
    else device
  | deviceNumbers, c =>
    if isWithin ' ' '/' c then deviceIntermediate
    else if isWithin '<' '~' c then message
    else deviceNumbers
  | deviceIntermediate, c => if isWithin '0' '~' c then message else deviceIntermediate
  | message, c => if endsMessage c then text else message

/-- What follows a character that is not kept. A cancel or a substitute breaks off whatever it meets,
and so does an escape, which starts anew. -/
def next (p : Phase) (c : Char) : Phase :=
  if c = '\x1b' then escape
  else if c = '\x18' || c = '\x1a' then text
  else p.proceed c

end Phase

/-- What becomes of a sequence that a kept control interrupts. -/
inductive Interrupted where
  /-- It is over. -/
  | dropped
  /-- It goes on with the next character that is not kept, unless a character beyond ASCII has been
  kept until then. -/
  | resumed
  deriving DecidableEq, Repr

/-- How far a text has been read. -/
structure Reading where
  phase : Phase := .text
  /-- The last character was kept. Text is read on in that case, whatever the phase. -/
  kept : Bool := false
  deriving DecidableEq, Repr

namespace Reading

/-- The character is kept. -/
def shows (r : Reading) (c : Char) : Bool := if r.kept then Phase.text.shows c else r.phase.shows c

def next (i : Interrupted) (r : Reading) (c : Char) : Reading :=
  if r.shows c then
    { phase := if i = .resumed ∧ c.toNat < 0x80 then r.phase else .text, kept := true }
  else { phase := r.phase.next c, kept := false }

/-- The characters that are kept from a given point on. -/
def rest (i : Interrupted) : Reading → List Char → List Char
  | _, [] => []
  | r, c :: cs => if r.shows c then c :: rest i (r.next i c) cs else rest i (r.next i c) cs

end Reading

/-- The text without controls and control sequences. -/
def plain (i : Interrupted) (s : String) : String :=
  String.ofList (({} : Reading).rest i s.toList)

end ModuleInstall.Terminal
