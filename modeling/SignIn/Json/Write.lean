import SignIn.Text.Utf8

/-!
# Writing JSON

Texts are written compactly. A string escapes the quote, the backslash and the control characters
below U+0020, these by a letter where there is one and by four hexadecimal digits otherwise;
everything else stands for itself.

## Main definitions

* `Json.escapeChar` — how one character is written
* `Json.writeText`, `Json.writeInteger`, `Json.writeMapping` — a string, a whole number, a mapping
-/

namespace SignIn.Json

/-- A hexadecimal digit, lower case. -/
def hexDigit (n : Nat) : Char := if n < 10 then Char.ofNat (0x30 + n) else Char.ofNat (0x57 + n)

/-- How one character is written. -/
def escapeChar (c : Char) : List Char :=
  match c with
  | '"' => ['\\', '"']
  | '\\' => ['\\', '\\']
  | '\n' => ['\\', 'n']
  | '\r' => ['\\', 'r']
  | '\t' => ['\\', 't']
  | '\x08' => ['\\', 'b']
  | '\x0c' => ['\\', 'f']
  | c =>
    if c.toNat < 0x20 then ['\\', 'u', '0', '0', hexDigit (c.toNat / 16), hexDigit (c.toNat % 16)]
    else [c]

/-- A string. -/
def writeText (s : String) : String := "\"" ++ String.ofList (s.toList.flatMap escapeChar) ++ "\""

/-- A whole number. -/
def writeInteger (n : Int) : String := toString n

/-- A mapping, given the written value of each member. -/
def writeMapping (members : List (String × String)) : String :=
  "\x7b" ++ String.intercalate "," (members.map fun m => writeText m.1 ++ ":" ++ m.2) ++ "\x7d"

end SignIn.Json
