import ModuleInstall.Text.Utf8

/-! # Records on a terminal -/

namespace ModuleInstall

/-- The two streams that a record can go to. -/
inductive Stream where
  | output
  | error
  deriving DecidableEq, Repr

/-! ## Looks -/

/-- How a piece of text stands out. -/
inductive Look where
  | bold
  | dim
  | red
  | green
  | yellow
  | blue
  | cyan
  deriving DecidableEq, Repr

namespace Look

/-- The number that turns a look on. -/
def on : Look → String
  | bold => "1"
  | dim => "2"
  | red => "31"
  | green => "32"
  | yellow => "33"
  | blue => "34"
  | cyan => "36"

/-- The number that turns a look off again. Weights share one with "all off", colours have their
own. -/
def off : Look → String
  | bold | dim => "0"
  | red | green | yellow | blue | cyan => "39"

/-- A text in a look. -/
def apply (look : Look) (text : String) : String :=
  "\x1b[" ++ look.on ++ "m" ++ text ++ "\x1b[" ++ look.off ++ "m"

end Look

/-- A text in looks that are turned off together. -/
def Look.applyAll (looks : List Look) (text : String) : String :=
  if looks = [] then text
  else String.join (looks.map fun look => "\x1b[" ++ look.on ++ "m") ++ text ++ "\x1b[0m"

/-- A word in a colour, and bold around it. -/
def Look.strong (colour : Look) (word : String) : String := Look.bold.apply (colour.apply word)

/-! ## Records -/

inductive Record where
  /-- What a command is about to do. -/
  | action (text : String)
  /-- The file that is handled, and its number among all. -/
  | numbered (current total : Nat) (text : String)
  /-- A stage in the handling of a file. -/
  | stage (text : String)
  | detail (text : String)
  | success (text : String)
  | warning (text : String)
  | error (text : String)
  /-- A text with nothing added. -/
  | plain (stream : Stream) (text : String)
  deriving DecidableEq, Repr

namespace Record

def stream : Record → Stream
  | action _ | numbered _ _ _ | stage _ | detail _ | success _ => .output
  | warning _ | error _ => .error
  | plain stream _ => stream

/-- The record without its line end. -/
def line : Record → String
  | action text => Look.blue.strong "==>" ++ " " ++ Look.bold.apply text
  | numbered current total text =>
    Look.cyan.apply ("(" ++ toString current ++ "/" ++ toString total ++ ")") ++ " " ++
      Look.bold.apply text
  | stage text => "  " ++ Look.cyan.apply "->" ++ " " ++ text
  | detail text => "     " ++ Look.dim.apply text
  | success text => Look.green.strong "==>" ++ " " ++ Look.green.apply text
  | warning text => Look.yellow.strong "warning:" ++ " " ++ Look.yellow.apply text
  | error text => Look.red.strong "error:" ++ " " ++ Look.red.apply text
  | plain _ text => text

def text (r : Record) : String := r.line ++ "\n"

end Record

/-- What the records of one stream read like together. -/
def Stream.text (s : Stream) (records : List Record) : String :=
  String.join ((records.filter fun r => r.stream == s).map Record.text)

end ModuleInstall
