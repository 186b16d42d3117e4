import SignIn.Callback.Params
import SignIn.Json.Record
import SignIn.Json.Write

/-!
# Callbacks as JSON

A callback is written as one flat mapping: the four fields with a meaning in their order, then the
others by name. It is read from a mapping in any order. The four fields may come once each, other
names may repeat and the last one counts. Values of other names are looked at only when the whole
mapping has been read, so a fault in the text comes before a value that is no text.

## Main definitions

* `Callback.Params.toJson`, `Callback.Params.ofJson`
-/

namespace SignIn.Callback.Params

open Json

/-- The members of a written callback. -/
def members (p : Params) : List (String × String) :=
  [("error", p.error), ("error_description", p.errorDescription), ("id_token", p.idToken),
    ("code", p.code)] ++ p.extra.entries

/-- The callback as it is written. -/
def toJson (p : Params) : String := writeMapping (p.members.map fun m => (m.1, writeText m.2))

/-- The shape of a callback: four texts, and anything else. -/
def record : Record Found where
  name := "CallbackParams"
  members := reserved.map fun name => withDefault name (readText.map .text) (.text "")
  others := some readAny

/-- A value that has to be a text. -/
def expectText : Found → Except Cause String
  | .text s => .ok s
  | found => .error (.wrongType found "a string")

/-- The callback of the members of a mapping. -/
def ofMembers (pairs : List (String × Found)) : Except Cause Params := do
  let field (name : String) : Except Cause String :=
    match Record.valueOf pairs name with
    | some found => expectText found
    | none => .ok ""
  let extra ← (pairs.filter fun p => !reserved.contains p.1).mapM fun p => do
    return (p.1, ← expectText p.2)
  return {
    error := ← field "error"
    errorDescription := ← field "error_description"
    idToken := ← field "id_token"
    code := ← field "code"
    extra := Dictionary.ofPairs extra }

/-- Reads a callback, which has to be a mapping. -/
def read : Reader Params := fun depth c =>
  let c := c.skipBlanks
  match c.peek with
  | some '{' => record.readMapping ofMembers depth c
  | none => c.failAhead .endInValue
  | some _ => refuse record.title c

/-- The callback of a JSON text. -/
def ofJson (bs : Bytes) : Except Json.Error Params := parse read bs

end SignIn.Callback.Params
