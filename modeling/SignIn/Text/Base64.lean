import SignIn.Text.Utf8

/-!
# Base64, URL-safe and unpadded

Tokens and authorization codes travel through query strings and form fields, so they are written
with the alphabet that needs no escape there (`-` and `_` for the last two digits) and without
padding.

Reading is strict. There is one written form for every byte string: padding is refused, and so are
unused bits of the last digit that are not zero. Where two faults meet, the order in which they are
reported is fixed:

1. a single digit left over at the end that is no digit at all,
2. the first byte before the last group that is no digit,
3. in the last group, from left to right, a byte that is no digit or a misplaced `=`,
4. a group of one digit, then padding, then unused bits.

## Main definitions

* `Base64.encode`, `Base64.decode`
* `Base64.Error` — the reasons for refusing, `Base64.Error.message` their wording
-/

namespace SignIn.Base64

/-- The digit of value `n`, for `n < 64`. -/
def digit (n : Nat) : Char :=
  if n < 26 then Char.ofNat (0x41 + n)
  else if n < 52 then Char.ofNat (0x61 + (n - 26))
  else if n < 62 then Char.ofNat (0x30 + (n - 52))
  else if n = 62 then '-'
  else '_'

/-- The value of a digit. -/
def digitValue? (b : UInt8) : Option Nat :=
  let n := b.toNat
  if 0x41 ≤ n ∧ n ≤ 0x5A then some (n - 0x41)
  else if 0x61 ≤ n ∧ n ≤ 0x7A then some (n - 0x61 + 26)
  else if 0x30 ≤ n ∧ n ≤ 0x39 then some (n - 0x30 + 52)
  else if n = 0x2D then some 62
  else if n = 0x5F then some 63
  else none

/-- The digits of a byte string: four for every three bytes, and as many as needed for the rest. -/
def encodeBytes : Bytes → List Char
  | [] => []
  | [a] => [digit (a.toNat / 4), digit (a.toNat % 4 * 16)]
  | [a, b] =>
    [digit (a.toNat / 4), digit (a.toNat % 4 * 16 + b.toNat / 16), digit (b.toNat % 16 * 4)]
  | a :: b :: c :: rest =>
    digit (a.toNat / 4) :: digit (a.toNat % 4 * 16 + b.toNat / 16) ::
      digit (b.toNat % 16 * 4 + c.toNat / 64) :: digit (c.toNat % 64) :: encodeBytes rest

/-- The written form of a byte string. -/
def encode (bs : Bytes) : String := String.ofList (encodeBytes bs)

/-! ### Reading -/

/-- Why a text is not the written form of a byte string. -/
inductive Error where
  /-- The byte at this offset is no digit. -/
  | symbol (byte : UInt8) (offset : Nat)
  /-- The text ends after the first digit of a group. -/
  | length (length : Nat)
  /-- The last digit, at this offset, has unused bits that are not zero. -/
  | lastSymbol (byte : UInt8) (offset : Nat)
  /-- The text is padded. -/
  | padding
  deriving DecidableEq, Repr

/-- The wording of an error. -/
def Error.message : Error → String
  | .symbol b offset => s!"Invalid symbol {b.toNat}, offset {offset}."
  | .length n => s!"Invalid input length: {n}"
  | .lastSymbol b offset => s!"Invalid last symbol {b.toNat}, offset {offset}."
  | .padding => "Invalid padding"

/-- The byte `=`, which pads other dialects of the format. -/
def pad : UInt8 := 0x3D

/-- The value of a digit that has to be one. -/
def expectDigit (b : UInt8) (offset : Nat) : Except Error Nat :=
  match digitValue? b with
  | some v => .ok v
  | none => .error (.symbol b offset)

/-- The three bytes of a full group of digits. -/
def groupBytes (a b c d : Nat) : Bytes :=
  [UInt8.ofNat (a * 4 + b / 16), UInt8.ofNat (b % 16 * 16 + c / 4), UInt8.ofNat (c % 4 * 64 + d)]

/-- The digits of the last group, from the one at position `i` in it. `padAt` is the position of
the first `=` seen. The result is the values of the digits and whether there was padding. -/
def lastDigits (offset : Nat) : Nat → Option Nat → Bytes → Except Error (List Nat × Bool)
  | _, padAt, [] => .ok ([], padAt.isSome)
  | i, padAt, b :: rest =>
    if b = pad then
      if i < 2 then .error (.symbol pad (offset + padAt.getD i))
      else lastDigits offset (i + 1) (padAt <|> some i) rest
    else match padAt with
      | some j => .error (.symbol pad (offset + j))
      | none => do
        let v ← expectDigit b (offset + i)
        let (vs, padded) ← lastDigits offset (i + 1) none rest
        return (v :: vs, padded)

/-- The bytes of the last group, which starts at `offset` and has at most four characters. -/
def decodeLast (offset : Nat) (group : Bytes) : Except Error Bytes := do
  let (digits, padded) ← lastDigits offset 0 none group
  let last := group.getD (digits.length - 1) 0
  if ¬group.isEmpty ∧ digits.length < 2 then throw (.length (offset + digits.length))
  if padded then throw .padding
  match digits with
  | [a, b] =>
    if b % 16 ≠ 0 then throw (.lastSymbol last (offset + 1))
    return [UInt8.ofNat (a * 4 + b / 16)]
  | [a, b, c] =>
    if c % 4 ≠ 0 then throw (.lastSymbol last (offset + 2))
    return [UInt8.ofNat (a * 4 + b / 16), UInt8.ofNat (b % 16 * 16 + c / 4)]
  | [a, b, c, d] => return groupBytes a b c d
  | _ => return []

/-- Reads whole groups until at most four characters are left. -/
def decodeGroups (offset : Nat) : Bytes → Except Error Bytes
  | a :: b :: c :: d :: e :: rest => do
    let a ← expectDigit a offset
    let b ← expectDigit b (offset + 1)
    let c ← expectDigit c (offset + 2)
    let d ← expectDigit d (offset + 3)
    return groupBytes a b c d ++ (← decodeGroups (offset + 4) (e :: rest))
  | group => decodeLast offset group

/-- The byte string that a text is the written form of. -/
def decodeBytes (bs : Bytes) : Except Error Bytes :=
  match bs.getLast? with
  | some b =>
    if bs.length % 4 = 1 ∧ b ≠ pad ∧ (digitValue? b).isNone then
      .error (.symbol b (bs.length - 1))
    else decodeGroups 0 bs
  | none => .ok []

/-- The byte string that a text is the written form of. -/
def decode (s : String) : Except Error Bytes := decodeBytes (Utf8.encode s)

end SignIn.Base64
