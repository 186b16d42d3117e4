import SignIn.Configuration
import SignIn.Text.Similarity

/-!
# The command line

Every setting has an option of its own, which takes a value; besides there are switches that take
none. An option is written with its long name or, if it has one, with a short name of one letter:

* `--port 80` or `--port=80`
* `-p 80`, `-p80` or `-p=80`

What starts with a dash is never the value of the option before it, a single dash excepted. Other
arguments there are none, so what is no option and no value is refused.

Arguments are read from left to right, and the first fault stops the reading; so do the switches
that ask for help or for the version. The value that stands behind an option is looked at when the
next option begins or when the arguments end. An argument that is not known comes first, before that
value.

A setting that is not given on the command line is taken from the environment.

## Main definitions

* `CommandLine.Switch` — what can be written, `CommandLine.Switch.label` how it is shown
* `CommandLine.Stop` — why the program does not start
* `CommandLine.parse` — the arguments of a command line
* `CommandLine.Arguments.setting` — the values of the settings
-/

namespace SignIn.CommandLine

/-! ### Switches -/

/-- What can be written on the command line. -/
inductive Switch where
  /-- An option that gives a setting its value. -/
  | set (setting : Setting)
  /-- Runs a mock broker in the same process. -/
  | mockBroker
  | help
  | version
  deriving DecidableEq, Repr

namespace Switch

/-- All switches. -/
def all : List Switch := Setting.all.map set ++ [mockBroker, help, version]

/-- The long name. -/
def long : Switch → String
  | set .host => "host"
  | set .port => "port"
  | set .brokerUrl => "broker-url"
  | set .redirectUri => "redirect-uri"
  | set .tokenEndpoint => "token-endpoint"
  | set .httpTimeout => "http-timeout-secs"
  | mockBroker => "mock-broker"
  | help => "help"
  | version => "version"

/-- The short name. -/
def short? : Switch → Option Char
  | set .host => some 'H'
  | set .port => some 'p'
  | help => some 'h'
  | version => some 'V'
  | _ => none

/-- The switch of a long name. -/
def ofLong? (name : String) : Option Switch := all.find? (·.long == name)

/-- The switch of a short name. -/
def ofShort? (name : Char) : Option Switch := all.find? (·.short? == some name)

/-- How a setting's value is called: as in the environment, without what all settings have in
front. -/
def valueName (s : Setting) : String := String.ofList (s.key.toList.drop 3)

/-- How a switch is shown. -/
def label (w : Switch) : String :=
  "--" ++ w.long ++ match w with
    | set s => " <" ++ valueName s ++ ">"
    | _ => ""

end Switch

/-- Why the program does not start. -/
inductive Stop where
  | help
  | version
  /-- An argument is not known; there may be a switch that was meant. `used` are the switches that
  were used up to there, with that one. -/
  | unknown (argument : String) (meant : Option Switch) (used : List Switch)
  /-- A value is given to a switch that takes none. -/
  | unneededValue (switch : Switch) (value : String) (used : List Switch)
  /-- An option has no value. -/
  | missingValue (setting : Setting)
  /-- The value of an option cannot be used. -/
  | badValue (setting : Setting) (value reason : String)
  /-- A switch is given more than once. -/
  | repeated (switch : Switch)
  deriving DecidableEq, Repr

/-! ### Values -/

/-- The largest port. -/
def portLimit : Nat := UInt16.size - 1

/-- The value of a setting as it is passed on: numbers are written anew. -/
def readValue (s : Setting) (value : String) : Except Stop String :=
  match s with
  | .port =>
    match Numeral.integer value with
    | .ok n =>
      if 0 ≤ n ∧ n ≤ portLimit then .ok (toString n.toNat)
      else .error (.badValue s value s!"{n} is not in 0..={portLimit}")
    | .error e => .error (.badValue s value e.message)
  | .httpTimeout =>
    match Numeral.natural (UInt64.size - 1) value with
    | .ok n => .ok (toString n)
    | .error e => .error (.badValue s value e.message)
  | _ => .ok value

/-! ### Reading -/

/-- The switches that were given, with the values of those that take one. -/
abbrev Given := List (Switch × String)

/-- How far the reading has come. -/
structure Progress where
  /-- What was given, in this order. -/
  given : Given
  /-- The option that was read last, when its value is not looked at yet. It may still be
  missing. -/
  pending : Option (Setting × Option String)
  deriving DecidableEq, Repr

namespace Progress

/-- The start of the reading. -/
def start : Progress := ⟨[], none⟩

/-- Whether a switch was given. -/
def has (p : Progress) (w : Switch) : Bool := p.given.any (·.1 == w)

/-- Adds a switch that takes no value. -/
def add (p : Progress) (w : Switch) : Except Stop Progress :=
  if p.has w then .error (.repeated w) else .ok { p with given := p.given ++ [(w, "")] }

/-- Adds an option and its value. -/
def addValue (p : Progress) (s : Setting) (value : String) : Except Stop Progress :=
  if p.has (.set s) then .error (.repeated (.set s))
  else do return { p with given := p.given ++ [(.set s, ← readValue s value)] }

/-- Looks at the value of the last option. -/
def settle (p : Progress) : Except Stop Progress :=
  match p.pending with
  | none => .ok p
  | some (s, none) => .error (.missingValue s)
  | some (s, some value) => addValue { p with pending := none } s value

/-- The switches that were used, the last one included whatever its value is. One that was used
twice is not in it. -/
def used (p : Progress) : List Switch :=
  let given := p.given.map (·.1)
  match p.pending with
  | some (s, some _) => if p.has (.set s) then given.erase (.set s) else given ++ [.set s]
  | _ => given

/-- A list with a switch in it. -/
def including (used : List Switch) (w : Switch) : List Switch :=
  if used.contains w then used else used ++ [w]

/-- Reads a switch that takes no value. -/
def readSwitch (p : Progress) (w : Switch) : Except Stop Progress := do
  let p ← p.settle
  match w with
  | .help => throw .help
  | .version => throw .version
  | w => p.add w

/-- Reads an option whose value comes next. -/
def readOption (p : Progress) (s : Setting) : Except Stop Progress := do
  return { ← p.settle with pending := some (s, none) }

/-- Reads an option with its value. -/
def readAssignment (p : Progress) (s : Setting) (value : String) : Except Stop Progress := do
  (← p.settle).addValue s value

/-- Refuses a long name, and tells which one may have been meant. -/
def refuse (p : Progress) (name : String) : Stop :=
  let meant := (Likeness.mostAlike? name (Switch.all.map Switch.long)).bind Switch.ofLong?
  .unknown ("--" ++ name) meant (meant.elim p.used (including p.used))

/-- Reads a long name, with the value that is attached to it if there is one. -/
def readLong (p : Progress) (name : String) (value : Option String) : Except Stop Progress :=
  match Switch.ofLong? name, value with
  | none, _ => .error (p.refuse name)
  | some (.set s), none => p.readOption s
  | some (.set s), some value => p.readAssignment s value
  | some w, none => p.readSwitch w
  | some w, some value => .error (.unneededValue w value (including (p.given.map (·.1)) w))

/-- Reads short names. What stands behind that of an option is its value. -/
def readShort (p : Progress) : List Char → Except Stop Progress
  | [] => .ok p
  | c :: rest =>
    match Switch.ofShort? c with
    | none => .error (.unknown ("-" ++ c.toString) none [])
    | some (.set s) =>
      match rest with
      | [] => p.readOption s
      | '=' :: value => p.readAssignment s (String.ofList value)
      | value => p.readAssignment s (String.ofList value)
    | some w => do readShort (← p.readSwitch w) rest

/-- Reads what is no option: the value of the option before it. -/
def readWord (p : Progress) (word : String) : Except Stop Progress :=
  match p.pending with
  | some (s, none) => .ok { p with pending := some (s, some word) }
  | _ => .error (.unknown word none [])

end Progress

/-- What an argument looks like. -/
inductive Argument where
  /-- Two dashes: no option follows. -/
  | separator
  | long (name : String) (value : Option String)
  | short (names : List Char)
  | word (text : String)
  deriving DecidableEq, Repr

/-- What an argument looks like. A dash alone is a word. -/
def Argument.ofText (text : String) : Argument :=
  match text.toList with
  | ['-', '-'] => .separator
  | '-' :: '-' :: rest =>
    let name := rest.takeWhile (· ≠ '=')
    .long (String.ofList name) <| match rest.drop name.length with
      | _ :: value => some (String.ofList value)
      | [] => none
  | '-' :: c :: rest => .short (c :: rest)
  | _ => .word text

/-- Reads arguments. -/
def read (p : Progress) : List String → Except Stop Progress
  | [] => p.settle
  | text :: rest =>
    match Argument.ofText text with
    | .separator =>
      match rest with
      | [] => p.settle
      | word :: _ => .error (.unknown word none [])
    | .long name value => do read (← p.readLong name value) rest
    | .short names => do read (← p.readShort names) rest
    | .word word => do read (← p.readWord word) rest

/-! ### Arguments -/

/-- What the command line and the environment say. -/
structure Arguments where
  given : Given
  deriving DecidableEq, Repr

namespace Arguments

/-- The value of a setting. -/
def setting (a : Arguments) (s : Setting) : Option String := a.given.lookup (.set s)

/-- Whether a mock broker is to run in the same process. -/
def mockBroker (a : Arguments) : Bool := a.given.any (·.1 == .mockBroker)

end Arguments

/-- Takes a setting from the environment, if it is there and was not given. -/
def fromEnvironment (environment : Setting → Option String) (p : Progress) (s : Setting) :
    Except Stop Progress :=
  match environment s with
  | some value => if p.has (.set s) then .ok p else p.addValue s value
  | none => .ok p

/-- The arguments of a command line in an environment. -/
def parse (environment : Setting → Option String) (arguments : List String) :
    Except Stop Arguments := do
  let p ← read .start arguments
  return ⟨(← Setting.all.foldlM (fromEnvironment environment) p).given⟩

end SignIn.CommandLine
