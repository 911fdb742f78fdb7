import ModuleInstall.Path.Basic
import ModuleInstall.Pieces

/-! # Interpreters -/

namespace ModuleInstall

/-- What a file is started by. -/
structure Interpreter where
  path : Path
  option : Option Bytes
  deriving DecidableEq, Repr

namespace Interpreter

/-- How many bytes of a file are looked at. -/
def headLength : Nat := 256

/-- The head of a file. NUL bytes follow a file that is shorter. -/
def head (content : Bytes) : Bytes :=
  (content.take headLength ++ List.replicate headLength 0).take headLength

def isBlank (b : UInt8) : Bool := b == 0x20 || b == 0x09

/-- The byte ends a name. -/
def endsName (b : UInt8) : Bool := isBlank b || b == 0

/-- The line that a head starts with. If it does not end in the head, the name at least has to, and
the last byte is not looked at. -/
def line? (head : Bytes) : Option Bytes :=
  let (first, others) := splitAtFirst 0x0A head
  if others.isSome ∧ (0 : UInt8) ∉ first then some first
  else if (head.dropWhile isBlank).any endsName then some head.dropLast
  else none

/-- The name and the option on a line. An empty name is that of the directory. -/
def ofLine? (line : Bytes) : Option Interpreter :=
  match (dropTrailing isBlank line).dropWhile isBlank with
  | [] => none
  | words =>
    let name := words.takeWhile fun b => !endsName b
    let behind := words.dropWhile fun b => !endsName b
    some
      { path := ⟨if name = [] then [Bytes.dot] else name⟩
        option :=
          match behind with
          | [] | 0 :: _ => none
          | behind => some ((behind.dropWhile isBlank).takeWhile (· != 0)) }

/-- The interpreter of a file, if it names one. -/
def ofContent? (content : Bytes) : Option Interpreter :=
  match head content with
  | 0x23 :: 0x21 :: rest => (line? rest).bind ofLine?
  | _ => none

end Interpreter

end ModuleInstall
