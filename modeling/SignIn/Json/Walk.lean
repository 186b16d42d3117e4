import SignIn.Json.Scan

/-!
# Walking over a value of any shape

Two readers have to get past values whose shape they do not know. One keeps such a value for
later, so every part of it must be sound and the nesting is limited. The other drops it, so it
only has to find the end. Both walk over the text in the same way, with a stack of the sequences
and mappings that are still open, and differ in a few places that `Mode` names.

The walk takes at least one byte in each round, so the bytes that are left bound its rounds.

## Main definitions

* `Json.Mode` — keeping or dropping
* `Json.walk` — past one value
* `Json.readAny` — past one value that is kept, telling what was found
* `Json.skipAny` — past one value that is dropped
-/

namespace SignIn.Json

/-- What becomes of the value that is walked over. -/
inductive Mode where
  /-- It is kept: strings must be sound, numbers in range, and the nesting is limited. -/
  | keep
  /-- It is dropped: only its end matters. -/
  | drop
  deriving DecidableEq, Repr

/-- A sequence or mapping that is still open. -/
inductive Frame where
  | sequence
  | mapping
  deriving DecidableEq, Repr

/-- Past a string, from behind its opening quote. -/
def Mode.text (mode : Mode) (c : Cursor) : Except Error Cursor :=
  match mode with
  | .keep => (scanText c).map Prod.snd
  | .drop => skipText c

/-- Past a number, from behind its sign. -/
def Mode.number (mode : Mode) (negative : Bool) (c : Cursor) : Except Error Cursor :=
  match mode with
  | .keep => (scanNumber negative c).map Prod.snd
  | .drop => skipNumber c

/-- Past the key of a member and its colon. `first` tells that no comma came before. -/
def Mode.key (mode : Mode) (first : Bool) (c : Cursor) : Except Error Cursor := do
  let c := c.skipBlanks
  let c ← match c.peek with
    | some '"' => mode.text c.advance
    | some '}' =>
      if mode = .keep ∧ ¬first then c.failAhead .trailingComma else c.failAhead .keyNotText
    | some _ => c.failAhead .keyNotText
    | none =>
      if mode = .keep ∧ ¬first then c.failAhead .endInValue else c.failAhead .endInMapping
  let c := c.skipBlanks
  match c.peek with
  | some ':' => return c.advance
  | some _ => c.failAhead .expectedColon
  | none => c.failAhead .endInMapping

/-- What the start of a value leads to: a scalar is over, a sequence or mapping is opened. -/
def Mode.start (mode : Mode) (c : Cursor) : Except Error (Option Frame × Cursor) :=
  match c.peek with
  | some 'n' => (none, ·) <$> scanWord ['u', 'l', 'l'] c.advance
  | some 't' => (none, ·) <$> scanWord ['r', 'u', 'e'] c.advance
  | some 'f' => (none, ·) <$> scanWord ['a', 'l', 's', 'e'] c.advance
  | some '-' => (none, ·) <$> mode.number true c.advance
  | some '"' => (none, ·) <$> mode.text c.advance
  | some '[' => .ok (some .sequence, c.advance)
  | some '{' => .ok (some .mapping, c.advance)
  | some x =>
    if x.isDigit then (none, ·) <$> mode.number false c else c.failAhead .expectedValue
  | none => c.failAhead .endInValue

/-- The place of the next value in an open frame, behind a key if there is one. `first` tells that
no comma came before. -/
def Mode.next (mode : Mode) (first : Bool) (frame : Frame) (c : Cursor) : Except Error Cursor :=
  match frame with
  | .mapping => mode.key first c
  | .sequence =>
    let c := c.skipBlanks
    if mode = .keep ∧ ¬first ∧ c.peek = some ']' then c.failAhead .trailingComma else .ok c

/-- Closes frames for as long as their brackets come next. The result is the frames that stay open
and the place of the next value in the innermost one; if all are closed, it is the place behind
them. A value comes after a comma if `comma` is set, and otherwise at the start of its frame. -/
def Mode.turn (mode : Mode) : (comma : Bool) → List Frame → Cursor →
    Except Error (List Frame × Cursor)
  | _, [], c => .ok ([], c)
  | comma, frame :: stack, c =>
    let c := c.skipBlanks
    match c.peek, frame, comma with
    | some ']', .sequence, _ | some '}', .mapping, _ => mode.turn true stack c.advance
    | some ',', _, true => do return (frame :: stack, ← mode.next false frame c.advance)
    | some _, .sequence, true => c.failAhead .expectedCommaOrBracket
    | some _, .mapping, true => c.failAhead .expectedCommaOrBrace
    | some _, _, false => do return (frame :: stack, ← mode.next true frame c)
    | none, .sequence, _ => c.failAhead .endInSequence
    | none, .mapping, _ => c.failAhead .endInMapping

/-- Past one value, with the frames around it open. `depth` is how many frames may be open at
once, if that is limited. The rounds are bounded by the bytes of `bound`, of which there are at
least as many as are left in the text. -/
def Mode.walkFrom (mode : Mode) (depth : Nat) (bound : Bytes) (stack : List Frame) (c : Cursor) :
    Except Error Cursor :=
  match bound with
  | [] => c.failAhead .endInValue
  | _ :: bound => do
    let c := c.skipBlanks
    let (opened, inside) ← mode.start c
    if mode == .keep && opened.isSome && depth ≤ stack.length + 1 then c.failAhead .nestedTooDeep
    else
      match ← mode.turn opened.isNone (opened.toList ++ stack) inside with
      | ([], c) => return c
      | (stack, c) => mode.walkFrom depth bound stack c

/-- Past one value. -/
def walk (mode : Mode) (depth : Nat) (c : Cursor) : Except Error Cursor :=
  mode.walkFrom depth c.rest [] c

/-- Past one value that is dropped, however deep it is nested. -/
def skipAny (c : Cursor) : Except Error Cursor := walk .drop 0 c

/-- What a value is, as far as an error would name it, without looking into sequences and
mappings. -/
def peekFound (c : Cursor) : Except Error (Found × Cursor) :=
  let c := c.skipBlanks
  match c.peek with
  | some 'n' => (.null, ·) <$> scanWord ['u', 'l', 'l'] c.advance
  | some 't' => (.bool true, ·) <$> scanWord ['r', 'u', 'e'] c.advance
  | some 'f' => (.bool false, ·) <$> scanWord ['a', 'l', 's', 'e'] c.advance
  | some '-' => scanNumber true c.advance
  | some '"' => (fun (s, c) => (.text s, c)) <$> scanText c.advance
  | some '[' => .ok (.sequence, c)
  | some '{' => .ok (.mapping, c)
  | some x => if x.isDigit then scanNumber false c else c.failAhead .expectedValue
  | none => c.failAhead .endInValue

/-- Past one value that is kept, with at most `depth - 1` frames open at once, telling what was
found. -/
def readAny (depth : Nat) (c : Cursor) : Except Error (Found × Cursor) := do
  let c := c.skipBlanks
  match c.peek with
  | some '[' => return (.sequence, ← walk .keep depth c)
  | some '{' => return (.mapping, ← walk .keep depth c)
  | _ => peekFound c

end SignIn.Json
