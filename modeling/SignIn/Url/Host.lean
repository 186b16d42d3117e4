import SignIn.Url.Basic

/-!
# Reading hosts

The host of a URL is a name or an address. Addresses have many spellings: an IPv4 address may have
fewer than four parts, each decimal, octal or hexadecimal; an IPv6 address may leave out one run of
zeros and end in an IPv4 address. All spellings of an address are read as one value.

Names are ASCII and are folded to lower case. A name that could be taken for part of another
component of the URL is refused.

Names in other scripts are left out. Elsewhere they are mapped to ASCII, and a label that starts
with `xn--` has to be what such a name is mapped to. Here a special URL with a character beyond
ASCII in its name is no URL, and of the labels that start with `xn--` only those are refused that
encode nothing at all or have no digits behind their last hyphen. What is proved about URLs that can
be read is proved about URLs with an ASCII name, and a label `xn--` in it is not looked into.

## Main definitions

* `Url.ParseError` — why a text is no URL, `Url.ParseError.message` its wording
* `Url.Host.ofSpecial` — the host of a URL with a special scheme
* `Url.Host.ofOther` — the host of any other URL
-/

namespace SignIn.Url

/-- Why a text is no URL. -/
inductive ParseError where
  | emptyHost
  | invalidDomain
  | invalidPort
  | invalidIpv4
  | invalidIpv6
  | invalidDomainCharacter
  | relativeWithoutBase
  | relativeWithRootlessBase
  deriving DecidableEq, Repr

/-- The wording of the reason. -/
def ParseError.message : ParseError → String
  | .emptyHost => "empty host"
  | .invalidDomain => "invalid international domain name"
  | .invalidPort => "invalid port number"
  | .invalidIpv4 => "invalid IPv4 address"
  | .invalidIpv6 => "invalid IPv6 address"
  | .invalidDomainCharacter => "invalid domain character"
  | .relativeWithoutBase => "relative URL without a base"
  | .relativeWithRootlessBase => "relative URL with a cannot-be-a-base base"

/-- Splits at every character `sep`. -/
def splitChars (sep : Char) : List Char → List (List Char)
  | [] => [[]]
  | c :: cs =>
    if c = sep then [] :: splitChars sep cs
    else match splitChars sep cs with
      | [] => [[c]]
      | first :: others => (c :: first) :: others

namespace Host

/-- The value of a digit below `radix`. -/
def digitValue? (radix : Nat) (c : Char) : Option Nat :=
  let n := c.toNat
  let value :=
    if 0x30 ≤ n ∧ n ≤ 0x39 then n - 0x30
    else if 0x41 ≤ n ∧ n ≤ 0x46 then n - 0x37
    else if 0x61 ≤ n ∧ n ≤ 0x66 then n - 0x57
    else 16
  if value < radix then some value else none

/-- The number that digits write. -/
def number? (radix : Nat) (digits : List Char) : Option Nat :=
  digits.foldlM (fun n c => (digitValue? radix c).map (radix * n + ·)) 0

/-! ### IPv4 -/

/-- One part of an IPv4 address: `0x` starts a hexadecimal and `0` an octal number. -/
def ipv4Part? : List Char → Option Nat
  | [] => none
  | '0' :: 'x' :: digits => number? 16 digits
  | '0' :: 'X' :: digits => number? 16 digits
  | '0' :: c :: digits => number? 8 (c :: digits)
  | digits => number? 10 digits

/-- The parts of a name, without the empty one behind a dot at its end. -/
def labels (name : List Char) : List (List Char) :=
  let parts := splitChars '.' name
  if parts.getLast? = some [] then parts.dropLast else parts

/-- Whether the last part of a name is a number, so that the whole has to be an address. -/
def endsInNumber (name : List Char) : Bool :=
  match (labels name).getLast? with
  | some part => (!part.isEmpty && part.all Char.isDigit) || (ipv4Part? part).isSome
  | none => false

/-- The address of its parts: all but the last are bytes, and the last fills what is left. -/
def ipv4OfParts : List Nat → Option Nat
  | [] => none
  | [last] => if last < UInt32.size then some last else none
  | [a, last] => if a < 256 ∧ last < 1 <<< 24 then some (a <<< 24 + last) else none
  | [a, b, last] =>
    if a < 256 ∧ b < 256 ∧ last < UInt16.size then some (a <<< 24 + b <<< 16 + last) else none
  | [a, b, c, last] =>
    if a < 256 ∧ b < 256 ∧ c < 256 ∧ last < 256 then
      some (a <<< 24 + b <<< 16 + c <<< 8 + last)
    else none
  | _ => none

/-- The IPv4 address that a name writes. -/
def ipv4? (name : List Char) : Option Nat := do ipv4OfParts (← (labels name).mapM ipv4Part?)

/-! ### IPv6 -/

/-- A decimal byte without needless zeros. -/
def plainByte? (digits : List Char) : Option Nat := do
  let n ← number? 10 digits
  if digits.isEmpty ∨ 255 < n ∨ (1 < digits.length ∧ digits.head? = some '0') then none else some n

/-- The pieces of one group: up to four hexadecimal digits or, at the end of the address, an IPv4
address. -/
def groupPieces? (atEnd : Bool) (group : List Char) : Option (List Nat) :=
  if group.contains '.' then do
    if !atEnd then none
    match ← (splitChars '.' group).mapM plainByte? with
    | [a, b, c, d] => some [a * 256 + b, c * 256 + d]
    | _ => none
  else if group.isEmpty ∨ 4 < group.length then none
  else (number? 16 group).map ([·])

/-- The pieces of groups that colons separate. -/
def groupsPieces? (atEnd : Bool) : List (List Char) → Option (List Nat)
  | [] => some []
  | [group] => groupPieces? atEnd group
  | group :: groups => do return (← groupPieces? false group) ++ (← groupsPieces? atEnd groups)

/-- The texts before and behind the first double colon. -/
def splitAtGap : List Char → Option (List Char × List Char)
  | ':' :: ':' :: rest => some ([], rest)
  | c :: rest => (splitAtGap rest).map fun (before, behind) => (c :: before, behind)
  | [] => none

/-- The groups of a text between or beside double colons; none if it is empty. -/
def groups (text : List Char) : List (List Char) :=
  if text.isEmpty then [] else splitChars ':' text

/-- The IPv6 address that a text writes. -/
def ipv6? (text : List Char) : Option (List Nat) :=
  match splitAtGap text with
  | some (before, behind) => do
    let front ← groupsPieces? false (groups before)
    let back ← groupsPieces? true (groups behind)
    let count := front.length + back.length
    if count ≤ 7 then some (front ++ List.replicate (8 - count) 0 ++ back) else none
  | none => do
    let pieces ← groupsPieces? true (groups text)
    if pieces.length = 8 then some pieces else none

/-- The host between square brackets. -/
def bracketed (text : List Char) : Except ParseError Host :=
  if text.getLast? = some ']' then
    match ipv6? (text.drop 1).dropLast with
    | some pieces => .ok (.ipv6 pieces)
    | none => .error .invalidIpv6
  else .error .invalidIpv6

/-! ### Names -/

/-- Characters that no host may hold. -/
def isForbidden (c : Char) : Bool :=
  c = '\x00' || c = '\t' || c = '\n' || c = '\r' || "#/:<>?@[\\]^| ".toList.contains c

/-- Characters that no name in a special URL may hold. -/
def isForbiddenInName (c : Char) : Bool :=
  isForbidden c || c.toNat < 0x20 || c = '%' || c.toNat = 0x7F

/-- A label in the encoded form of other scripts has to encode something. That is all that is asked
of it. -/
def isBrokenLabel : List Char → Bool
  | 'x' :: 'n' :: '-' :: '-' :: encoded => encoded.isEmpty || encoded.getLast? = some '-'
  | _ => false

/-- The host of a URL with a special scheme: escapes are resolved, letters folded, and a name that
ends in a number has to be an address. A name in another script is refused. -/
def ofSpecial (text : List Char) : Except ParseError Host := do
  if text.head? = some '[' then bracketed text
  else
    let name := (Percent.decode (Utf8.encode (String.ofList text))).map fun b =>
      (Char.ofNat b.toNat).toLower
    if name.any (fun c => 0x7F < c.toNat || isForbiddenInName c) ||
        (splitChars '.' name).any isBrokenLabel then
      throw .invalidDomain
    if name.isEmpty then throw .emptyHost
    if endsInNumber name then
      match ipv4? name with
      | some address => return .ipv4 address
      | none => throw .invalidIpv4
    return .domain (String.ofList name)

/-- The host of any other URL: what is not printable is escaped and nothing else is changed. -/
def ofOther (text : List Char) : Except ParseError Host :=
  if text.head? = some '[' then bracketed text
  else if text.any isForbidden then .error .invalidDomainCharacter
  else .ok (.domain (Percent.encode (fun b => 0x20 ≤ b && b < 0x7F) (String.ofList text)))

end Host

end SignIn.Url
