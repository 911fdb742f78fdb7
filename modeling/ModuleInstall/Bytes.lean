/-! # Byte strings -/

namespace ModuleInstall

abbrev Bytes := List UInt8

namespace Bytes

/-- The byte `/`, which separates the names in a path. -/
def slash : UInt8 := 0x2F

/-- The byte `.`, which starts a file extension. -/
def dot : UInt8 := 0x2E

/-- The byte of an ASCII capital letter becomes that of the small one; all others stay. -/
def lowerByte (b : UInt8) : UInt8 := if 0x41 ≤ b ∧ b ≤ 0x5A then b + 0x20 else b

/-- Equality up to the case of ASCII letters. -/
def sameIgnoringCase (a b : Bytes) : Bool := a.map lowerByte == b.map lowerByte

/-- The order by the first byte that differs; a prefix comes first. -/
def le : Bytes → Bytes → Bool
  | [], _ => true
  | _ :: _, [] => false
  | a :: as, b :: bs => a < b || (a == b && le as bs)

end Bytes

end ModuleInstall
