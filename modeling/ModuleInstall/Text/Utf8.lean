import ModuleInstall.Bytes

/-!
# UTF-8

`scan` gives a character for each well-formed sequence and `none` for each maximal part of an
ill-formed one.
-/

namespace ModuleInstall.Utf8

/-- A sequence that has begun: the bits read so far, the bytes still owed, and the bounds of the
next byte. The bounds are narrower than `80..BF` after the leads `E0`, `ED`, `F0` and `F4`, so that
neither an overlong form nor a surrogate nor a number above `10FFFF` is ever completed. -/
structure Pending where
  bits : Nat
  owed : Nat
  low : UInt8 := 0x80
  high : UInt8 := 0xBF
  deriving DecidableEq, Repr

/-- What one byte decides: the characters that are now known (`none` stands for an ill-formed
part), and the sequence that is still open. -/
abbrev Progress := List (Option Char) × Option Pending

/-- A byte that starts a sequence, or that cannot. -/
def start (b : UInt8) : Progress :=
  let v := b.toNat
  if v ≤ 0x7F then ([some (Char.ofNat v)], none)
  else if 0xC2 ≤ v ∧ v ≤ 0xDF then ([], some { bits := v - 0xC0, owed := 1 })
  else if v = 0xE0 then ([], some { bits := 0, owed := 2, low := 0xA0 })
  else if v = 0xED then ([], some { bits := 0xD, owed := 2, high := 0x9F })
  else if 0xE1 ≤ v ∧ v ≤ 0xEF then ([], some { bits := v - 0xE0, owed := 2 })
  else if v = 0xF0 then ([], some { bits := 0, owed := 3, low := 0x90 })
  else if 0xF1 ≤ v ∧ v ≤ 0xF3 then ([], some { bits := v - 0xF0, owed := 3 })
  else if v = 0xF4 then ([], some { bits := 4, owed := 3, high := 0x8F })
  else ([none], none)

/-- A byte that continues an open sequence. -/
def Pending.push (p : Pending) (b : UInt8) : Progress :=
  let bits := p.bits * 0x40 + (b.toNat - 0x80)
  if p.owed ≤ 1 then ([some (Char.ofNat bits)], none)
  else ([], some { bits, owed := p.owed - 1 })

/-- One byte. One that does not continue the open sequence ends it, and is read afresh. -/
def step : Option Pending → UInt8 → Progress
  | none, b => start b
  | some p, b =>
    if p.low ≤ b ∧ b ≤ p.high then p.push b
    else (none :: (start b).1, (start b).2)

/-- The decoder from a given point on. A sequence that is open at the end is ill-formed. -/
def scanFrom : Option Pending → Bytes → List (Option Char)
  | none, [] => []
  | some _, [] => [none]
  | state, b :: rest => (step state b).1 ++ scanFrom (step state b).2 rest

/-- The characters of a byte string, with `none` for each maximal ill-formed part. -/
def scan (bs : Bytes) : List (Option Char) := scanFrom none bs

/-- The bytes are well-formed throughout. -/
def isText (bs : Bytes) : Bool := (scan bs).all Option.isSome

/-- The characters of a byte string, U+FFFD in place of each ill-formed part. -/
def decode (bs : Bytes) : List Char := (scan bs).map (·.getD '\uFFFD')

/-- The text of a byte string, U+FFFD in place of each ill-formed part. -/
def toText (bs : Bytes) : String := String.ofList (decode bs)

/-- The text of a byte string that is well-formed throughout. -/
def toText? (bs : Bytes) : Option String := if isText bs then some (toText bs) else none

/-- The bytes of a text. -/
def encode (s : String) : Bytes := s.toList.flatMap String.utf8EncodeChar

end ModuleInstall.Utf8
