import SignIn.Text.Quoted
import SignIn.Text.Shortest

/-!
# Why a JSON text is refused

A reader stops at the first fault and names it together with the place, line and column, up to
which the text was looked at. There are two kinds of faults: the text is no JSON, or it is but
holds something else than the reader was asked for. Both are reported in one stream, in the order
in which they stand in the text.

## Main definitions

* `Json.Found` — a value, as far as an error names it
* `Json.Cause` — the faults, `Json.Cause.message` their wording
* `Json.Error` — a fault and its place
-/

namespace SignIn.Json

/-- A value as an error names it: what kind it is and, for a scalar, which one. -/
inductive Found where
  | null
  | bool (value : Bool)
  | integer (value : Int)
  /-- A number with a fraction, an exponent or too many digits, by the bits of its double. -/
  | decimal (bits : UInt64)
  | text (value : String)
  | sequence
  | mapping
  deriving DecidableEq, Repr

/-- The wording for a value. -/
def Found.describe : Found → String
  | .null => "null"
  | .bool b => s!"boolean `{b}`"
  | .integer n => s!"integer `{n}`"
  | .decimal bits => s!"floating point `{Shortest.text bits}`"
  | .text s => "string " ++ Quoted.quote s
  | .sequence => "sequence"
  | .mapping => "map"

/-- The faults of a text. -/
inductive Cause where
  | endInValue
  | endInText
  | endInMapping
  | endInSequence
  | expectedColon
  | expectedCommaOrBracket
  | expectedCommaOrBrace
  | expectedLiteral
  | expectedValue
  | keyNotText
  | trailingComma
  | trailingCharacters
  | malformedNumber
  | numberOutOfRange
  | malformedEscape
  | missingSurrogate
  | loneSurrogate
  | controlCharacter
  | malformedUtf8
  | nestedTooDeep
  | missingField (name : String)
  | duplicateField (name : String)
  /-- A value of another type than `expected`. -/
  | wrongType (found : Found) (expected : String)
  /-- A value of the right type outside the range of `expected`. -/
  | wrongValue (found : Found) (expected : String)
  /-- A sequence with too few elements. -/
  | wrongLength (length : Nat) (expected : String)
  /-- A name that is none of the alternatives. -/
  | unknownVariant (name : String) (alternatives : List String)
  /-- A value that has none of the shapes that it could have. -/
  | noVariant (expected : String)
  deriving DecidableEq, Repr

/-- The wording of a fault. -/
def Cause.message : Cause → String
  | .endInValue => "EOF while parsing a value"
  | .endInText => "EOF while parsing a string"
  | .endInMapping => "EOF while parsing an object"
  | .endInSequence => "EOF while parsing a list"
  | .expectedColon => "expected `:`"
  | .expectedCommaOrBracket => "expected `,` or `]`"
  | .expectedCommaOrBrace => "expected `,` or `\x7d`"
  | .expectedLiteral => "expected ident"
  | .expectedValue => "expected value"
  | .keyNotText => "key must be a string"
  | .trailingComma => "trailing comma"
  | .trailingCharacters => "trailing characters"
  | .malformedNumber => "invalid number"
  | .numberOutOfRange => "number out of range"
  | .malformedEscape => "invalid escape"
  | .missingSurrogate => "unexpected end of hex escape"
  | .loneSurrogate => "lone leading surrogate in hex escape"
  | .controlCharacter => "control character (\\u0000-\\u001F) found while parsing a string"
  | .malformedUtf8 => "invalid unicode code point"
  | .nestedTooDeep => "recursion limit exceeded"
  | .missingField name => s!"missing field `{name}`"
  | .duplicateField name => s!"duplicate field `{name}`"
  | .wrongType found expected => s!"invalid type: {found.describe}, expected {expected}"
  | .wrongValue found expected => s!"invalid value: {found.describe}, expected {expected}"
  | .wrongLength n expected => s!"invalid length {n}, expected {expected}"
  | .unknownVariant name alternatives =>
    s!"unknown variant `{name}`, expected one of " ++
      String.intercalate ", " (alternatives.map fun a => s!"`{a}`")
  | .noVariant expected => s!"data did not match any variant of untagged enum {expected}"

/-- A fault and its place. Lines count from 1, and the column is the number of bytes of the line
that were looked at. -/
structure Error where
  cause : Cause
  line : Nat
  column : Nat
  deriving DecidableEq, Repr

/-- The wording of an error. -/
def Error.message (e : Error) : String :=
  s!"{e.cause.message} at line {e.line} column {e.column}"

end SignIn.Json
