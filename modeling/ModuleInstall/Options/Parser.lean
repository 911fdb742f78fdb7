import ModuleInstall.Options.Fault
import ModuleInstall.Pieces

/-!
# Reading a command line

A value that is not attached to its key stays pending until the next key or the end shows that it
is complete, and only then is it looked at.
-/

namespace ModuleInstall

/-- The values that were given, each key at most once. A flag has the empty value. -/
abbrev Choices := List (Key × Bytes)

/-- A variable and its value, if it is set. -/
abbrev Variables := String → Option Bytes

namespace Options

/-- How far a command line has been read. -/
structure Reading where
  choices : Choices := []
  /-- The key whose value is not complete, and the value as far as it is known. -/
  pending : Option (Key × Option Bytes) := none
  /-- The keys whose place is still to come. -/
  placed : List Key
  /-- Two dashes have been read, after which nothing is an option. -/
  plainOnly : Bool := false
  deriving DecidableEq, Repr

namespace Reading

/-! ## Values -/

/-- The value fits the key. -/
def check (key : Key) (value : Bytes) : Except UsageFault Unit :=
  match key.shape with
  | .flag => .ok ()
  | .path => if value = [] then .error (.valueMissing key) else .ok ()
  | .text => if Utf8.isText value then .ok () else .error .notText

/-- Takes a complete value. -/
def accept (r : Reading) (key : Key) (value : Bytes) : Except UsageFault Reading :=
  if (r.choices.lookup key).isSome then .error (.repeated key)
  else (check key value).map fun _ => { r with choices := r.choices ++ [(key, value)] }

/-- Takes the value that is pending. -/
def settle (r : Reading) : Except UsageFault Reading :=
  match r.pending with
  | none => .ok r
  | some (key, none) => .error (.valueMissing key)
  | some (key, some value) => ({ r with pending := none } : Reading).accept key value

/-! ## Options -/

/-- Meets a key by its name, with the value that is attached to it. -/
def meet (r : Reading) (key : Key) (attached : Option Bytes) : Except Halt Reading :=
  match key.shape, attached with
  | .flag, some value => .error (.fault (.valueUnwanted key value))
  | shape, attached =>
    match r.settle with
    | .error fault => .error (.fault fault)
    | .ok r =>
      match key, shape, attached with
      | .help, _, _ => .error .help
      | .version, _, _ => .error .version
      | key, .flag, _ => (r.accept key []).mapError .fault
      | key, _, some value => (r.accept key value).mapError .fault
      | key, _, none => .ok { r with pending := some (key, none) }

/-- Reads what follows two dashes: a name, and after an equals sign a value. -/
def long (g : Grammar) (r : Reading) (body : Bytes) : Except Halt Reading :=
  let (name, value) := splitAtFirst 0x3D body
  match g.byLong? name with
  | some key => r.meet key value
  | none => .error (.fault (.unknown ("--" ++ Utf8.toText name)))

/-- What is shown of letters that start with an unknown one: that letter, or all if it is none. -/
def shownLetter (letters : Bytes) : String :=
  match Utf8.scan letters with
  | some c :: _ => String.ofList [c]
  | _ => Utf8.toText letters

/-- Reads what follows one dash: letters of flags, and maybe one letter of another key with its
value right after it or after an equals sign. -/
def letters (g : Grammar) (r : Reading) : Bytes → Except Halt Reading
  | [] => .ok r
  | letter :: rest =>
    match g.byShort? letter with
    | none => .error (.fault (.unknown ("-" ++ shownLetter (letter :: rest))))
    | some key =>
      if key.shape = .flag then
        match r.meet key none with
        | .ok r => letters g r rest
        | .error halt => .error halt
      else
        match rest with
        | [] => r.meet key none
        | 0x3D :: value => r.meet key (some value)
        | value => r.meet key (some value)

/-! ## Arguments without a name -/

/-- Meets a value in the next free place. -/
def place (r : Reading) (value : Bytes) : Except UsageFault Reading :=
  match r.placed with
  | [] => .error (.unknown (Utf8.toText value))
  | key :: placed => r.settle.map fun r => { r with pending := some (key, some value), placed }

/-! ## The whole line -/

/-- Reads one argument. -/
def take (g : Grammar) (r : Reading) (arg : Bytes) : Except Halt Reading :=
  if r.plainOnly then (r.place arg).mapError .fault
  else
    match arg with
    | [0x2D, 0x2D] => .ok { r with plainOnly := true }
    | 0x2D :: 0x2D :: body => r.long g body
    | 0x2D :: letter :: rest => r.letters g (letter :: rest)
    | value =>
      match r.pending with
      | some (key, none) => .ok { r with pending := some (key, some value) }
      | _ => (r.place value).mapError .fault

/-- Reads arguments from left to right. -/
def takeAll (g : Grammar) (r : Reading) : List Bytes → Except Halt Reading
  | [] => r.settle.mapError .fault
  | arg :: rest =>
    match r.take g arg with
    | .ok r => takeAll g r rest
    | .error halt => .error halt

/-- Takes the variables of keys that were not given. -/
def fill (env : Variables) (r : Reading) : List Key → Except UsageFault Reading
  | [] => .ok r
  | key :: rest =>
    match r.choices.lookup key, key.envName?.bind env with
    | none, some value =>
      match r.accept key value with
      | .ok r => fill env r rest
      | .error fault => .error fault
    | _, _ => fill env r rest

end Reading

/-- The choices that a command line and an environment make. -/
def parse (g : Grammar) (env : Variables) (args : List Bytes) : Except Halt Choices :=
  match ({ placed := g.placed } : Reading).takeAll g args with
  | .error halt => .error halt
  | .ok r =>
    match r.fill env g.named with
    | .error fault => .error (.fault fault)
    | .ok r =>
      match g.required.filter fun key => (r.choices.lookup key).isNone with
      | [] => .ok r.choices
      | missing => .error (.fault (.missing missing))

end Options

end ModuleInstall
