import ModuleInstall.Pieces

/-! # Characters and lines -/

namespace ModuleInstall

/-- A set of characters: a table of intervals of their numbers, both ends included. -/
abbrev CodePoints := List (Nat × Nat)

/-- Some interval of the table holds the character. -/
def CodePoints.has (table : CodePoints) (c : Char) : Bool :=
  table.any fun (low, high) => low ≤ c.toNat && c.toNat ≤ high

namespace Text

/-- The characters with the property `White_Space`. -/
def blanks : CodePoints := [
  (0x9, 0xD), (0x20, 0x20), (0x85, 0x85), (0xA0, 0xA0), (0x1680, 0x1680), (0x2000, 0x200A),
  (0x2028, 0x2029), (0x202F, 0x202F), (0x205F, 0x205F), (0x3000, 0x3000)]

def isBlank (c : Char) : Bool := blanks.has c

/-- The text without the blanks at its end. -/
def trimEnd (cs : List Char) : List Char := dropTrailing isBlank cs

/-- The line without the carriage return at its end. -/
def dropReturn (line : List Char) : List Char :=
  if line.getLast? = some '\r' then line.dropLast else line

/-- Lines out of the pieces between line feeds. The last piece has no line feed after it, so that
it keeps its carriage return, and is no line if it is empty. -/
def linesOf : List Char → List (List Char) → List (List Char)
  | piece, [] => if piece = [] then [] else [piece]
  | piece, next :: rest => dropReturn piece :: linesOf next rest

/-- The lines of a text. A line ends at a line feed, with a carriage return before it or without. -/
def lines (cs : List Char) : List (List Char) := linesOf (pieces '\n' cs).1 (pieces '\n' cs).2

end Text

end ModuleInstall
