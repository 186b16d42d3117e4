import SignIn.Json.Walk

/-!
# Records

A record is a fixed list of named members. It is read from a mapping, in any order and among any
other members, or from a sequence of the member values in order.

Unknown members are dropped. A member that comes twice is a fault, and so is a missing one that has
no default. In a sequence only members with a default may be missing, at its end.

Faults of the record as a whole, a missing or doubled member or a wrong length, have no byte of
their own. They are placed behind what comes next in the text when they are noticed, the closing
bracket if it is there.

## Main definitions

* `Json.Reader` — a reader of one value; it is told how many frames may still be opened
* `Json.attempt` — reads a value that may have another form than the one that is looked for
* `Json.Member`, `Json.Record` — what a record consists of
* `Json.Record.read` — the values of all members, in the order of the record
* `Json.parse` — a whole text by a reader
-/

namespace SignIn.Json

/-- Reads a value at a cursor, with a bound on the frames that may still be opened. -/
abbrev Reader (α : Type) := Nat → Cursor → Except Error (α × Cursor)

/-- How many frames may be open at once in a whole text. -/
def depthLimit : Nat := 128

/-- Reads a whole text: nothing but blanks may follow the value. -/
def parse {α : Type} (reader : Reader α) (bs : Bytes) : Except Error α := do
  let (a, c) ← reader depthLimit (Cursor.ofBytes bs)
  let c := c.skipBlanks
  match c.peek with
  | none => return a
  | some _ => c.failAhead .trailingCharacters

/-! ### Scalars -/

/-- Refuses the value that comes next, which is not of the type `expected`. -/
def refuse {α : Type} (expected : String) (c : Cursor) : Except Error α := do
  let (found, c) ← peekFound c
  c.fail (.wrongType found expected)

/-- Reads a string. -/
def readText : Reader String := fun _ c =>
  let c := c.skipBlanks
  match c.peek with
  | some '"' => scanText c.advance
  | _ => refuse "a string" c

/-- Reads a whole number of 64 bits with sign, from behind the sign. -/
def scanInteger (negative : Bool) (c : Cursor) : Except Error (Int × Cursor) := do
  let (found, c) ← scanNumber negative c
  match found with
  | .integer n => if n < 1 <<< 63 then return (n, c) else c.fail (.wrongValue found "i64")
  | found => c.fail (.wrongType found "i64")

/-- Reads a whole number of 64 bits with sign. -/
def readInteger : Reader Int := fun _ c =>
  let c := c.skipBlanks
  match c.peek with
  | some '-' => scanInteger true c.advance
  | some x => if x.isDigit then scanInteger false c else refuse "i64" c
  | none => refuse "i64" c

/-- Reads a value that may be `null`. -/
def optional {α : Type} (reader : Reader α) : Reader (Option α) := fun depth c => do
  let c := c.skipBlanks
  match c.peek with
  | some 'n' => return (none, ← scanWord ['u', 'l', 'l'] c.advance)
  | _ =>
    let (a, c) ← reader depth c
    return (some a, c)

/-- Reads a value and applies `f` to it. -/
def Reader.map {α β : Type} (f : α → β) (reader : Reader α) : Reader β := fun depth c => do
  let (a, c) ← reader depth c
  return (f a, c)

/-! ### Elements of a sequence -/

/-- The place of the next element, or `none` where the sequence ends. -/
def nextElement (first : Bool) (c : Cursor) : Except Error (Option Cursor) :=
  let c := c.skipBlanks
  match c.peek with
  | none => c.failAhead .endInSequence
  | some ']' => .ok none
  | some ',' =>
    if first then .ok (some c)
    else
      let c := c.advance.skipBlanks
      match c.peek with
      | some ']' => c.failAhead .trailingComma
      | some _ => .ok (some c)
      | none => c.failAhead .endInValue
  | some _ => if first then .ok (some c) else c.failAhead .expectedCommaOrBracket

/-- The end of a sequence. -/
def endSequence (c : Cursor) : Except Error Cursor :=
  let c := c.skipBlanks
  match c.peek with
  | some ']' => .ok c.advance
  | some ',' =>
    let c := c.advance.skipBlanks
    match c.peek with
    | some ']' => c.failAhead .trailingComma
    | _ => c.failAhead .trailingCharacters
  | some _ => c.failAhead .trailingCharacters
  | none => c.failAhead .endInSequence

/-- Behind what comes next when a fault of a whole sequence is noticed. -/
def behindSequence (c : Cursor) : Cursor :=
  let c := c.skipBlanks
  match c.peek with
  | some ']' => c.advance
  | some ',' => c.advance.skipBlanks
  | _ => c

/-- The elements of a sequence from behind its bracket. -/
def readElements {α : Type} (reader : Reader α) (depth : Nat) :
    Nat → Bool → Cursor → Except Error (List α × Cursor)
  | 0, _, c => c.failAhead .endInSequence
  | fuel + 1, first, c => do
    match ← nextElement first c with
    | none => return ([], c)
    | some c =>
      let (a, c) ← reader depth c
      let (as, c) ← readElements reader depth fuel false c
      return (a :: as, c)

/-- Reads a sequence of any length. -/
def readList {α : Type} (reader : Reader α) : Reader (List α) := fun depth c => do
  let c := c.skipBlanks
  match c.peek with
  | some '[' =>
    if depth ≤ 1 then c.failAhead .nestedTooDeep
    else
      let inside := c.advance
      let (as, c) ← readElements reader (depth - 1) (inside.rest.length + 1) true inside
      return (as, ← endSequence c)
  | none => c.failAhead .endInValue
  | some _ => refuse "a sequence" c

/-! ### Members of a mapping -/

/-- The next key and the place behind it, or `none` where the mapping ends. -/
def nextKey (first : Bool) (c : Cursor) : Except Error (Option (String × Cursor)) := do
  let c := c.skipBlanks
  let key (c : Cursor) : Except Error (Option (String × Cursor)) := do
    match c.peek with
    | some '"' => return some (← scanText c.advance)
    | some '}' => c.failAhead .trailingComma
    | some _ => c.failAhead .keyNotText
    | none => c.failAhead .endInValue
  match c.peek with
  | some '}' => return none
  | some ',' => if first then c.failAhead .keyNotText else key c.advance.skipBlanks
  | some _ => if first then key c else c.failAhead .expectedCommaOrBrace
  | none => c.failAhead .endInMapping

/-- Past the colon behind a key. -/
def skipColon (c : Cursor) : Except Error Cursor :=
  let c := c.skipBlanks
  match c.peek with
  | some ':' => .ok c.advance
  | some _ => c.failAhead .expectedColon
  | none => c.failAhead .endInMapping

/-- The end of a mapping. -/
def endMapping (c : Cursor) : Except Error Cursor :=
  let c := c.skipBlanks
  match c.peek with
  | some '}' => .ok c.advance
  | some ',' => c.failAhead .trailingComma
  | some _ => c.failAhead .trailingCharacters
  | none => c.failAhead .endInMapping

/-- Behind what comes next when a fault of a whole mapping is noticed. -/
def behindMapping (c : Cursor) : Cursor :=
  let c := c.skipBlanks
  match c.peek with
  | some '}' => c.advance
  | _ => c

/-! ### Values of another form -/

/-- Past a value that is looked at only if it is a scalar. Of a sequence or mapping only the opening
bracket is taken, with the closing one if that comes next. -/
def passScalar : Reader Unit := fun _ c => do
  let c := c.skipBlanks
  match c.peek with
  | some '[' => return ((), (endSequence c.advance).toOption.getD c.advance)
  | some '{' => return ((), (endMapping c.advance).toOption.getD c.advance)
  | _ => return ((), ← skipAny c)

/-- Reads a value if it has the form that the reader expects, and otherwise passes it by. -/
def attempt {α : Type} (reader : Reader α) : Reader (Option α) := fun depth c =>
  match reader depth c with
  | .ok (a, c) => .ok (some a, c)
  | .error _ => passScalar.map (fun _ => none) depth c

/-! ### Records -/

/-- One member of a record: its name, how its value is read, and what a missing one counts as, in
a mapping and at the end of a sequence. -/
structure Member (α : Type) where
  name : String
  read : Reader α
  absent : Option α
  absentAtEnd : Option α

/-- A record: what an error calls it, its members, and how members of other names are read if they
are not dropped. -/
structure Record (α : Type) where
  name : String
  members : List (Member α)
  others : Option (Reader α)

namespace Record

variable {α : Type}

/-- What an error calls the record. -/
def title (r : Record α) : String := s!"struct {r.name}"

/-- What an error calls the record when it has the wrong length. -/
def titleWithLength (r : Record α) : String :=
  let n := r.members.length
  s!"struct {r.name} with {n} element" ++ if n = 1 then "" else "s"

/-- The first value with this name. -/
def valueOf (pairs : List (String × α)) (name : String) : Option α :=
  (pairs.find? (fun p => p.1 == name)).map Prod.snd

/-- Reads the value of a member from behind its key, `none` if it is dropped. -/
def readMember (r : Record α) (depth : Nat) (seen : List (String × α)) (key : String) (c : Cursor) :
    Except Error (Option α × Cursor) := do
  let reader ← match r.members.find? (fun m => m.name == key) with
    | some m =>
      if (valueOf seen key).isSome then (behindMapping c).fail (.duplicateField key)
      else pure (some m.read)
    | none => pure r.others
  let c ← skipColon c
  match reader with
  | some read =>
    let (a, c) ← read depth c
    return (some a, c)
  | none => return (none, ← skipAny c)

/-- The members of a mapping from behind its bracket, in the order of the text. `seen` holds those
that were read already, the last one first. -/
def readMembers (r : Record α) (depth : Nat) :
    Nat → Bool → List (String × α) → Cursor → Except Error (List (String × α) × Cursor)
  | 0, _, _, c => c.failAhead .endInMapping
  | fuel + 1, first, seen, c => do
    match ← nextKey first c with
    | none => return (seen.reverse, c)
    | some (key, c) =>
      let (value, c) ← r.readMember depth seen key c
      readMembers r depth fuel false ((value.map (key, ·)).toList ++ seen) c

/-- The values of the members, in their order, from the pairs of a mapping. -/
def collect (r : Record α) (pairs : List (String × α)) : Except Cause (List α) :=
  r.members.mapM fun m =>
    match valueOf pairs m.name <|> m.absent with
    | some a => .ok a
    | none => .error (.missingField m.name)

/-- A fault without a place of its own gets the place of `c`. -/
def place {β : Type} (c : Cursor) : Except Cause β → Except Error β
  | .ok b => .ok b
  | .error cause => c.fail cause

/-- Reads a mapping from its bracket on and makes something of its pairs. -/
def readMapping {β : Type} (r : Record α) (finish : List (String × α) → Except Cause β) :
    Reader β := fun depth c => do
  if depth ≤ 1 then c.failAhead .nestedTooDeep
  else
    let inside := c.advance
    let (pairs, c) ← r.readMembers (depth - 1) (inside.rest.length + 1) true [] inside
    let b ← place (behindMapping c) (finish pairs)
    return (b, ← endMapping c)

/-- The values of the members from the elements of a sequence; `index` counts them. -/
def readElements (r : Record α) (depth index : Nat) :
    List (Member α) → Cursor → Except Error (List α × Cursor)
  | [], c => .ok ([], c)
  | m :: members, c => do
    match ← nextElement (index == 0) c with
    | some c =>
      let (a, c) ← m.read depth c
      let (as, c) ← r.readElements depth (index + 1) members c
      return (a :: as, c)
    | none =>
      match m.absentAtEnd with
      | some a =>
        let (as, c) ← r.readElements depth (index + 1) members c
        return (a :: as, c)
      | none => (behindSequence c).fail (.wrongLength index r.titleWithLength)

/-- Reads a sequence from its bracket on. -/
def readSequence (r : Record α) : Reader (List α) := fun depth c => do
  if depth ≤ 1 then c.failAhead .nestedTooDeep
  else
    let (as, c) ← r.readElements (depth - 1) 0 r.members c.advance
    return (as, ← endSequence c)

/-- Reads a record: the values of its members, in their order. -/
def read (r : Record α) : Reader (List α) := fun depth c =>
  let c := c.skipBlanks
  match c.peek with
  | some '{' => r.readMapping r.collect depth c
  | some '[' => r.readSequence depth c
  | none => c.failAhead .endInValue
  | some _ => refuse r.title c

end Record

/-- A member that must be there. -/
def required {α : Type} (name : String) (reader : Reader α) : Member α :=
  ⟨name, reader, none, none⟩

/-- A member with a default. -/
def withDefault {α : Type} (name : String) (reader : Reader α) (a : α) : Member α :=
  ⟨name, reader, some a, some a⟩

end SignIn.Json
