import SignIn.CommandLine

/-!
# What the command line says

Help and version go to the standard output and are a success. Everything else that stops the program
is a fault: it is reported on the standard error, together with a hint at the help.

Where a fault is about which switches there are, the report shows how the program is used, with the
switches that were used so far if there are any.

## Main definitions

* `CommandLine.helpText`, `CommandLine.versionText`
* `CommandLine.Stop.exitCode`, `CommandLine.Stop.output`, `CommandLine.Stop.errorOutput`
-/

namespace SignIn.CommandLine

/-- The name under which the program runs. -/
def programName : String := "brokerrp"

/-- The version of the program. -/
def version : String := "0.1.0"

/-! ### Help -/

/-- What a switch does. -/
def Switch.description : Switch → String
  | .set .host => "Host address to bind the server to [default: 127.0.0.1]"
  | .set .port => "Port to listen on [default: 44180]"
  | .set .brokerUrl => "Broker origin [default: http://localhost:44133]"
  | .set .redirectUri =>
    "Callback URL registered with the broker [default: http://localhost:44180/verify]"
  | .set .tokenEndpoint => "Token endpoint for the code flow [default: <broker-url>/token]"
  | .set .httpTimeout => "Timeout for outbound broker requests, in seconds [default: 10]"
  | .mockBroker => "Run a mock broker in-process on the broker URL's port and use it"
  | .help => "Print help"
  | .version => "Print version"

/-- The names of a switch as the help shows them; long names stand below each other. -/
def Switch.names (w : Switch) : String :=
  match w.short? with
  | some c => "  -" ++ c.toString ++ ", " ++ w.label
  | none => "      " ++ w.label

/-- The help for a switch. For a setting it shows where it is in the environment, and its value
there. -/
def Switch.helpText (environment : Setting → Option String) (w : Switch) : String :=
  w.names ++ "\n          " ++ w.description ++ match w with
    | .set s => " [env: " ++ s.key ++ "=" ++ (environment s).getD "" ++ "]\n"
    | _ => "\n"

/-- The help. -/
def helpText (environment : Setting → Option String) : String :=
  programName ++ " - relying party for identity broker end-to-end tests\n\nUsage: " ++
    programName ++ " [OPTIONS]\n\nOptions:\n" ++
    String.join (Switch.all.map (Switch.helpText environment))

/-- The program and its version. -/
def versionText : String := programName ++ " " ++ version ++ "\n"

/-! ### Faults -/

/-- How the program is used, with these switches. -/
def usage (used : List Switch) : String :=
  "Usage: " ++ programName ++ " " ++
    (if used.isEmpty then "[OPTIONS]" else String.intercalate " " (used.map Switch.label))

namespace Stop

/-- Whether the program was only asked for something, which is a success. -/
def isRequest : Stop → Bool
  | help | version => true
  | _ => false

/-- The exit code. -/
def exitCode (s : Stop) : Nat := if s.isRequest then 0 else 2

/-- What a fault is, in paragraphs. -/
def paragraphs : Stop → List String
  | help | version => []
  | unknown argument meant used =>
    [s!"unexpected argument '{argument}' found"] ++
      (meant.map fun w => s!"  tip: a similar argument exists: '--{w.long}'").toList ++ [usage used]
  | unneededValue w value used =>
    [s!"unexpected value '{value}' for '{w.label}' found; no more were expected", usage used]
  | missingValue s => [s!"a value is required for '{(Switch.set s).label}' but none was supplied"]
  | badValue s value reason =>
    [s!"invalid value '{value}' for '{(Switch.set s).label}': {reason}"]
  | repeated w => [s!"the argument '{w.label}' cannot be used multiple times", usage []]

/-- What goes to the standard output. -/
def output (environment : Setting → Option String) : Stop → String
  | help => helpText environment
  | version => versionText
  | _ => ""

/-- What goes to the standard error. -/
def errorOutput (s : Stop) : String :=
  if s.isRequest then ""
  else
    "error: " ++ String.intercalate "\n\n" (s.paragraphs ++
      ["For more information, try '--help'.\n"])

end Stop

end SignIn.CommandLine
