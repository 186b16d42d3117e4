import SignIn.Text.Percent

/-!
# URLs

A URL is kept in parts that are already normalised: scheme and host in lower case, every part with
the escapes that its place needs, the port absent when it is the default of the scheme. So there is
one value for all spellings of a URL, and writing it needs no decisions.

The path of a URL is either a list of segments or, for schemes such as `mailto`, one text without a
root, against which nothing can be resolved.

## Main definitions

* `Url`, `Url.Host`, `Url.Path` — a URL and its parts
* `Url.toText` — the written form
* `Url.origin` — scheme, host and port, for the schemes that have an origin
-/

namespace SignIn

namespace Url

/-- The machine that a URL names. -/
inductive Host where
  /-- A name, possibly empty. -/
  | domain (name : String)
  /-- An address of 32 bits. -/
  | ipv4 (address : Nat)
  /-- An address of eight pieces of 16 bits each. -/
  | ipv6 (pieces : List Nat)
  deriving DecidableEq, Repr

/-- Where on that machine. -/
inductive Path where
  /-- One text, against which nothing can be resolved. -/
  | rootless (text : String)
  /-- The texts between the slashes. -/
  | segments (segments : List String)
  deriving DecidableEq, Repr

end Url

/-- A URL in normal form. -/
structure Url where
  scheme : String
  username : String
  password : String
  host : Option Url.Host
  port : Option Nat
  path : Url.Path
  query : Option String
  fragment : Option String
  deriving DecidableEq, Repr

namespace Url

/-- The port that a scheme uses when none is named. -/
def defaultPort? (scheme : String) : Option Nat :=
  match scheme with
  | "http" | "ws" => some 80
  | "https" | "wss" => some 443
  | "ftp" => some 21
  | _ => none

/-- Whether URLs of this scheme always have a host and a path from the root. -/
def isSpecial (scheme : String) : Bool := (defaultPort? scheme).isSome || scheme == "file"

/-- The port to connect to, if it is known. -/
def portOrDefault (u : Url) : Option Nat := u.port <|> defaultPort? u.scheme

/-- Whether nothing can be resolved against the URL. -/
def isRootless (u : Url) : Bool :=
  match u.path with
  | .rootless _ => true
  | .segments _ => false

/-! ### Writing -/

namespace Host

/-- The four bytes of an address. -/
def ipv4Text (address : Nat) : String :=
  String.intercalate "." ([24, 16, 8, 0].map fun shift => toString ((address >>> shift) % 256))

/-- How many zeros a list starts with. -/
def zerosAtFront (pieces : List Nat) : Nat := (pieces.takeWhile (· = 0)).length

/-- Where the first of the longest runs of two or more zeros starts, and its length. -/
def longestZeros (pieces : List Nat) : Option (Nat × Nat) :=
  let runs := (List.range pieces.length).map fun i => (i, zerosAtFront (pieces.drop i))
  runs.foldl
    (fun best run =>
      if run.2 < 2 then best
      else match best with
        | some (_, n) => if n < run.2 then some run else best
        | none => some run) none

/-- A piece in hexadecimal. -/
def hexText (n : Nat) : String := String.ofList (Nat.toDigits 16 n)

/-- Pieces joined by colons. -/
def piecesText (pieces : List Nat) : String := String.intercalate ":" (pieces.map hexText)

/-- The eight pieces of an address, the longest run of zeros left out. -/
def ipv6Text (pieces : List Nat) : String :=
  match longestZeros pieces with
  | some (start, length) =>
    piecesText (pieces.take start) ++ "::" ++ piecesText (pieces.drop (start + length))
  | none => piecesText pieces

/-- The written host. -/
def toText : Host → String
  | .domain name => name
  | .ipv4 address => ipv4Text address
  | .ipv6 pieces => "[" ++ ipv6Text pieces ++ "]"

end Host

/-- The written path. -/
def Path.toText : Path → String
  | .rootless text => text
  | .segments names => String.join (names.map ("/" ++ ·))

/-- The written port, with its colon. -/
def portText : Option Nat → String
  | some port => s!":{port}"
  | none => ""

/-- The written user name and password. -/
def userinfoText (u : Url) : String :=
  if u.username = "" ∧ u.password = "" then ""
  else if u.password = "" then u.username ++ "@"
  else u.username ++ ":" ++ u.password ++ "@"

/-- What stands between the scheme and the path. Without a host, a path that starts with two
slashes is set off by `/.`, so that it is not taken for a host. -/
def authorityText (u : Url) : String :=
  match u.host with
  | some host => "//" ++ u.userinfoText ++ host.toText ++ portText u.port
  | none =>
    match u.path with
    | .segments ("" :: _ :: _) => "/."
    | _ => ""

/-- A part that may be missing, behind its mark. -/
def partText (mark : String) : Option String → String
  | some text => mark ++ text
  | none => ""

/-- The written URL. -/
def toText (u : Url) : String :=
  u.scheme ++ ":" ++ u.authorityText ++ u.path.toText ++ partText "?" u.query ++
    partText "#" u.fragment

end Url

end SignIn
