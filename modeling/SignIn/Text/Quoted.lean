import SignIn.Text.Unprinted

/-!
# Quoted text in messages

A message that repeats a text from outside puts it between double quotes, so that a reader sees
where it begins and ends and nothing in it can pass for the message around it: quotes and
backslashes are escaped, the three common controls have their short names, and every other
character that leaves no ink is written by its number.

## Main definitions

* `Quoted.escape` — how one character is written
* `Quoted.quote` — a text between quotes
-/

namespace SignIn.Quoted

/-- A number in hexadecimal, lower case. -/
def hex (n : Nat) : String := String.ofList (Nat.toDigits 16 n)

/-- How one character is written. -/
def escape (c : Char) : String :=
  match c with
  | '"' => "\\\""
  | '\\' => "\\\\"
  | '\n' => "\\n"
  | '\r' => "\\r"
  | '\t' => "\\t"
  | '\x00' => "\\0"
  | c => if Unprinted.contains c then "\\u\x7b" ++ hex c.toNat ++ "\x7d" else String.singleton c

/-- A text between quotes. -/
def quote (s : String) : String :=
  "\"" ++ String.ofList (s.toList.flatMap fun c => (escape c).toList) ++ "\""

end SignIn.Quoted
