import SignIn.Json.Error
import SignIn.Text.Utf8

/-!
# The leaves of a JSON text

A cursor is a place in a text: what is left of it and how far the reading has come. This module
reads what has no parts of its own from a cursor: blanks, the three literal words, numbers and
strings. Each reader takes the cursor behind what it read.

A fault is placed in one of two ways. `fail` places it at the cursor, when the faulty byte has been
taken already; `failAhead` counts the next byte in, when it was only looked at.

## Main definitions

* `Json.Cursor` — a place in a text
* `Json.scanText`, `Json.skipText` — a string, read or passed over
* `Json.scanNumber`, `Json.skipNumber` — a number, read or passed over

Passing over is more lenient than reading: it checks the shape of a string or number but not the
pairing of surrogates, the UTF-8 or the range.
-/

namespace SignIn.Json

/-- A place in a text. -/
structure Cursor where
  rest : Bytes
  line : Nat := 1
  column : Nat := 0
  deriving DecidableEq, Repr

namespace Cursor

/-- The start of a text. -/
def ofBytes (bs : Bytes) : Cursor := ⟨bs, 1, 0⟩

/-- The place behind one more byte. -/
def after (c : Cursor) (b : UInt8) (rest : Bytes) : Cursor :=
  if b = 0x0A then ⟨rest, c.line + 1, 0⟩ else ⟨rest, c.line, c.column + 1⟩

/-- The place behind the next byte, or the same place at the end. -/
def advance (c : Cursor) : Cursor :=
  match c.rest with
  | [] => c
  | b :: rest => c.after b rest

/-- The next byte, as the character of that number. -/
def peek (c : Cursor) : Option Char := c.rest.head?.map fun b => Char.ofNat b.toNat

/-- A fault at this place. -/
def fail {α : Type} (c : Cursor) (cause : Cause) : Except Error α :=
  .error ⟨cause, c.line, c.column⟩

/-- A fault that counts the next byte in. -/
def failAhead {α : Type} (c : Cursor) (cause : Cause) : Except Error α := c.advance.fail cause

/-- Behind the blanks. -/
def skipBlanks (c : Cursor) : Cursor := go c.rest c.line c.column
where
  /-- Behind the blanks of `rest`, which starts at the given line and column. -/
  go : Bytes → Nat → Nat → Cursor
    | [], line, column => ⟨[], line, column⟩
    | b :: rest, line, column =>
      if b = 0x0A then go rest (line + 1) 0
      else if b = 0x20 ∨ b = 0x09 ∨ b = 0x0D then go rest line (column + 1)
      else ⟨b :: rest, line, column⟩

end Cursor

/-! ### Words -/

/-- Takes the remaining letters of a literal word. -/
def scanWord : List Char → Cursor → Except Error Cursor
  | [], c => .ok c
  | letter :: letters, c =>
    match c.peek with
    | none => c.fail .endInValue
    | some x => if x = letter then scanWord letters c.advance else c.advance.fail .expectedLiteral

/-! ### Strings -/

/-- What a string reader has to remember between two bytes. -/
inductive TextState where
  /-- Between characters. -/
  | plain
  /-- Behind a backslash. -/
  | escape
  /-- Among the four digits of `\uXXXX`, with those seen so far. A leading surrogate waits for
  its partner. -/
  | hex (lead : Option Nat) (digits : List UInt8)
  /-- Behind a leading surrogate. -/
  | afterLead (lead : Nat)
  /-- Behind a leading surrogate and a backslash. -/
  | afterLeadEscape (lead : Nat)
  deriving DecidableEq, Repr

/-- What one byte does to a string. -/
inductive TextStep where
  /-- The string goes on, and these bytes belong to it. -/
  | more (state : TextState) (bytes : Bytes)
  /-- The string ends. -/
  | close
  /-- The byte, already taken, is a fault. -/
  | fault (cause : Cause)
  deriving DecidableEq, Repr

/-- The value of a hexadecimal digit. -/
def hexValue? (b : UInt8) : Option Nat :=
  let n := b.toNat
  if 0x30 ≤ n ∧ n ≤ 0x39 then some (n - 0x30)
  else if 0x41 ≤ n ∧ n ≤ 0x46 then some (n - 0x37)
  else if 0x61 ≤ n ∧ n ≤ 0x66 then some (n - 0x57)
  else none

/-- The number that four hexadecimal digits write. -/
def hexNumber? (digits : List UInt8) : Option Nat :=
  digits.foldlM (fun n b => (hexValue? b).map (16 * n + ·)) 0

/-- What the short escapes stand for. -/
def shortEscape? (x : Char) : Option UInt8 :=
  match x with
  | '"' => some 0x22
  | '\\' => some 0x5C
  | '/' => some 0x2F
  | 'b' => some 0x08
  | 'f' => some 0x0C
  | 'n' => some 0x0A
  | 'r' => some 0x0D
  | 't' => some 0x09
  | _ => none

/-- What the number of a complete `\uXXXX` does, given the leading surrogate before it. -/
def hexStep (lead : Option Nat) (n : Nat) : TextStep :=
  match lead with
  | none =>
    if 0xDC00 ≤ n ∧ n ≤ 0xDFFF then .fault .loneSurrogate
    else if 0xD800 ≤ n ∧ n ≤ 0xDBFF then .more (.afterLead n) []
    else .more .plain (Utf8.encode (String.singleton (Char.ofNat n)))
  | some high =>
    if 0xDC00 ≤ n ∧ n ≤ 0xDFFF then
      .more .plain (Utf8.encode (String.singleton
        (Char.ofNat ((high - 0xD800) * 0x400 + (n - 0xDC00) + 0x10000))))
    else .fault .loneSurrogate

/-- What one byte does to a string that is read. -/
def textStep (state : TextState) (b : UInt8) : TextStep :=
  let x := Char.ofNat b.toNat
  match state with
  | .plain =>
    if x = '"' then .close
    else if x = '\\' then .more .escape []
    else if b < 0x20 then .fault .controlCharacter
    else .more .plain [b]
  | .escape =>
    if x = 'u' then .more (.hex none []) []
    else match shortEscape? x with
      | some y => .more .plain [y]
      | none => .fault .malformedEscape
  | .hex lead digits =>
    if digits.length < 3 then .more (.hex lead (digits ++ [b])) []
    else match hexNumber? (digits ++ [b]) with
      | some n => hexStep lead n
      | none => .fault .malformedEscape
  | .afterLead lead =>
    if x = '\\' then .more (.afterLeadEscape lead) [] else .fault .missingSurrogate
  | .afterLeadEscape lead =>
    if x = 'u' then .more (.hex (some lead) []) [] else .fault .missingSurrogate

/-- Reads a string to its end. `seen` holds the bytes of the string so far, the last one first;
whether they are well formed is looked at when the closing quote comes. -/
def scanTextFrom (state : TextState) (seen : Bytes) (line column : Nat) :
    Bytes → Except Error (String × Cursor)
  | [] => .error ⟨.endInText, line, column⟩
  | b :: rest =>
    let here : Cursor := Cursor.after ⟨[], line, column⟩ b rest
    match textStep state b with
    | .more state bytes => scanTextFrom state (bytes.reverse ++ seen) here.line here.column rest
    | .close =>
      match Utf8.decode? seen.reverse with
      | some s => .ok (s, here)
      | none => .error ⟨.malformedUtf8, line, column⟩
    | .fault cause => here.fail cause

/-- Reads a string from behind its opening quote. -/
def scanText (c : Cursor) : Except Error (String × Cursor) :=
  scanTextFrom .plain [] c.line c.column c.rest

/-- What a reader that passes over a string has to remember between two bytes. -/
inductive SkipState where
  | plain
  | escape
  | hex (digits : List UInt8)
  deriving DecidableEq, Repr

/-- Passes over a string to its end. -/
def skipTextFrom (state : SkipState) (line column : Nat) : Bytes → Except Error Cursor
  | [] => .error ⟨.endInText, line, column⟩
  | b :: rest =>
    let x := Char.ofNat b.toNat
    let here : Cursor := Cursor.after ⟨[], line, column⟩ b rest
    match state with
    | .plain =>
      if x = '"' then .ok here
      else if x = '\\' then skipTextFrom .escape here.line here.column rest
      else if b < 0x20 then .error ⟨.controlCharacter, line, column⟩
      else skipTextFrom .plain here.line here.column rest
    | .escape =>
      if x = 'u' then skipTextFrom (.hex []) here.line here.column rest
      else if (shortEscape? x).isSome then skipTextFrom .plain here.line here.column rest
      else here.fail .malformedEscape
    | .hex digits =>
      if digits.length < 3 then skipTextFrom (.hex (digits ++ [b])) here.line here.column rest
      else if (hexNumber? (digits ++ [b])).isSome then
        skipTextFrom .plain here.line here.column rest
      else here.fail .malformedEscape

/-- Passes over a string from behind its opening quote. -/
def skipText (c : Cursor) : Except Error Cursor := skipTextFrom .plain c.line c.column c.rest

/-! ### Numbers -/

/-- The value of a decimal digit. -/
def digitValue? (x : Char) : Option Nat := if x.isDigit then some (x.toNat - 0x30) else none

/-- The decimal digits that come next and the place behind them. -/
def spanDigits (c : Cursor) : List Nat × Cursor := go c.rest c.line c.column
where
  /-- The digits at the front of `rest`, which starts at the given line and column. -/
  go : Bytes → Nat → Nat → List Nat × Cursor
    | [], line, column => ([], ⟨[], line, column⟩)
    | b :: rest, line, column =>
      match digitValue? (Char.ofNat b.toNat) with
      | some d =>
        let (ds, c) := go rest line (column + 1)
        (d :: ds, c)
      | none => ([], ⟨b :: rest, line, column⟩)

/-- The largest significand that is kept exactly; further digits only count. -/
def significandLimit : Nat := UInt64.size - 1

/-- Takes digits into a significand as long as it stays within the limit. The result is the
significand, how many digits were taken, and how many were left. -/
def takeSignificand (significand : Nat) : List Nat → Nat × Nat × Nat
  | [] => (significand, 0, 0)
  | d :: ds =>
    if 10 * significand + d ≤ significandLimit then
      let (s, taken, left) := takeSignificand (10 * significand + d) ds
      (s, taken + 1, left)
    else (significand, 0, ds.length + 1)

/-- The power of ten, as a double. -/
def powerOfTen (n : Nat) : Float := Float.ofScientific 1 false n

/-- `f * 10 ^ exponent`, computed with one correctly rounded power of ten, or several for very
small numbers; `none` if it is too large. -/
def scaleBy : Nat → Float → Int → Option Float
  | 0, f, _ => some f
  | fuel + 1, f, exponent =>
    if exponent.natAbs ≤ 308 then
      if 0 ≤ exponent then
        let g := f * powerOfTen exponent.toNat
        if g.isInf then none else some g
      else some (f / powerOfTen exponent.natAbs)
    else if f == 0 then some f
    else if 0 ≤ exponent then none
    else scaleBy fuel (f / powerOfTen 308) (exponent + 308)

/-- The number `significand * 10 ^ exponent` with a sign, or a fault at `c` if it is too large. -/
def decimalAt (c : Cursor) (negative : Bool) (significand : Nat) (exponent : Int) :
    Except Error (Found × Cursor) :=
  match scaleBy (exponent.natAbs + 1) significand.toUInt64.toFloat exponent with
  | some f => .ok (.decimal (if negative then -f else f).toBits, c)
  | none => c.fail .numberOutOfRange

/-- The largest exponent that is kept exactly. -/
def exponentLimit : Nat := 1 <<< 31 - 1

/-- Takes the further digits of an exponent. The result is its value, or the place behind the digit
that made it too large. -/
def takeExponent (value : Nat) (c : Cursor) : List Nat → Except Cursor Nat
  | [] => .ok value
  | d :: ds =>
    if 10 * value + d ≤ exponentLimit then takeExponent (10 * value + d) c.advance ds
    else .error c.advance

/-- Whether a minus sign comes next, and the place behind the sign if there is one. -/
def takeSign (c : Cursor) : Bool × Cursor :=
  match c.peek with
  | some '+' => (false, c.advance)
  | some '-' => (true, c.advance)
  | _ => (false, c)

/-- Reads an exponent, from its `e` on, to a number without it. -/
def scanExponent (c : Cursor) (negative : Bool) (significand : Nat) (exponent : Int) :
    Except Error (Found × Cursor) := do
  let (down, c) := takeSign c.advance
  match c.peek with
  | none => c.fail .endInValue
  | some x =>
    match digitValue? x with
    | none => c.advance.fail .malformedNumber
    | some d =>
      let c := c.advance
      let (ds, behind) := spanDigits c
      match takeExponent d c ds with
      | .ok value =>
        decimalAt behind negative significand (if down then exponent - value else exponent + value)
      | .error here =>
        if significand ≠ 0 ∧ ¬down then here.fail .numberOutOfRange
        else .ok (.decimal (if negative then (-0.0 : Float) else 0.0).toBits, behind)

/-- Reads a fraction, from its point on, to a number without it. -/
def scanFraction (c : Cursor) (negative : Bool) (significand : Nat) (exponent : Int) :
    Except Error (Found × Cursor) := do
  let (ds, c) := spanDigits c.advance
  if ds.isEmpty then
    match c.peek with
    | some _ => c.failAhead .malformedNumber
    | none => c.failAhead .endInValue
  else
    let (significand, taken, _) := takeSignificand significand ds
    let exponent := exponent - taken
    match c.peek with
    | some 'e' | some 'E' => scanExponent c negative significand exponent
    | _ => decimalAt c negative significand exponent

/-- Reads what may follow the whole part of a number. -/
def scanAfterWhole (c : Cursor) (negative : Bool) (significand left : Nat) :
    Except Error (Found × Cursor) :=
  match c.peek with
  | some '.' => scanFraction c negative significand left
  | some 'e' | some 'E' => scanExponent c negative significand left
  | _ =>
    if left ≠ 0 then decimalAt c negative significand left
    else if ¬negative then .ok (.integer significand, c)
    else if significand = 0 ∨ 1 <<< 63 < significand then decimalAt c true significand 0
    else .ok (.integer (-significand), c)

/-- Reads a number from behind its sign. -/
def scanNumber (negative : Bool) (c : Cursor) : Except Error (Found × Cursor) :=
  match c.peek with
  | none => c.fail .endInValue
  | some '0' =>
    let c := c.advance
    match c.peek with
    | some x => if x.isDigit then c.failAhead .malformedNumber else scanAfterWhole c negative 0 0
    | none => scanAfterWhole c negative 0 0
  | some x =>
    if x.isDigit then
      let (ds, c) := spanDigits c
      let (significand, _, left) := takeSignificand 0 ds
      scanAfterWhole c negative significand left
    else c.advance.fail .malformedNumber

/-- Passes over an exponent, from its `e` on. -/
def skipExponent (c : Cursor) : Except Error Cursor :=
  let c := (takeSign c.advance).2
  match c.peek with
  | some x =>
    if x.isDigit then .ok (spanDigits c).2 else c.advance.fail .malformedNumber
  | none => c.fail .malformedNumber

/-- Passes over what may follow the whole part of a number. -/
def skipAfterWhole (c : Cursor) : Except Error Cursor :=
  match c.peek with
  | some '.' =>
    let (ds, c) := spanDigits c.advance
    if ds.isEmpty then c.failAhead .malformedNumber
    else match c.peek with
      | some 'e' | some 'E' => skipExponent c
      | _ => .ok c
  | some 'e' | some 'E' => skipExponent c
  | _ => .ok c

/-- Passes over a number from behind its sign. -/
def skipNumber (c : Cursor) : Except Error Cursor :=
  match c.peek with
  | some '0' =>
    let c := c.advance
    match c.peek with
    | some x => if x.isDigit then c.failAhead .malformedNumber else skipAfterWhole c
    | none => skipAfterWhole c
  | some x =>
    if x.isDigit then skipAfterWhole (spanDigits c).2 else c.advance.fail .malformedNumber
  | none => c.fail .malformedNumber

end SignIn.Json
