import SignIn.Crypto.Sha256
import SignIn.Json.Record
import SignIn.Json.Write
import SignIn.Text.Base64
import SignIn.Time

/-!
# ID tokens of the mock broker

An ID token is a signed statement: a header that names the algorithm, the claims, and a signature
over both, each in base64 and joined by dots. The mock broker signs with a secret that it shares
with its clients, so they can check a token without asking.

A token is checked from the outside in. The first fault counts, in this order: three parts, the
header, the algorithm, the signature, the claims, and then lifetime, issuer and audience.

The claims are read twice. The first reading takes what the token says, and it is strict about what
it takes. The second one looks for what limits the use of the token, and passes by what it cannot
use. It knows one more claim, the start of the lifetime. That is not enforced, but a token must not
have it twice, or in the form of a sequence or mapping that holds anything. What the second reading
finds is checked, and what the first one found is the result.

## Main definitions

* `Mock.Claims` — what a token says
* `Mock.Limits` — what limits its use
* `Mock.IdToken.issue`, `Mock.IdToken.decode`
* `Mock.IdToken.Error` — why a token is rejected, `Mock.IdToken.Error.message` its wording
-/

namespace SignIn.Mock

open Json

/-- What an ID token says. -/
structure Claims where
  iss : String
  aud : String
  sub : String
  email : String
  nonce : String
  /-- When it was issued, in seconds since the start of 1970. -/
  iat : Int
  /-- When it expires. -/
  exp : Int
  deriving DecidableEq, Repr

namespace Claims

/-- The claims as JSON. -/
def toJson (c : Claims) : String :=
  writeMapping [("iss", writeText c.iss), ("aud", writeText c.aud), ("sub", writeText c.sub),
    ("email", writeText c.email), ("nonce", writeText c.nonce), ("iat", writeInteger c.iat),
    ("exp", writeInteger c.exp)]

/-- A claim is a text or a number. -/
abbrev Value := String ⊕ Int

/-- The shape of written claims. -/
def record : Record Value where
  name := "MockClaims"
  members :=
    ["iss", "aud", "sub", "email", "nonce"].map (fun name => required name (readText.map .inl)) ++
      ["iat", "exp"].map fun name => required name (readInteger.map .inr)
  others := none

/-- The claims of their values. -/
def ofValues : List Value → Option Claims
  | [.inl iss, .inl aud, .inl sub, .inl email, .inl nonce, .inr iat, .inr exp] =>
    some ⟨iss, aud, sub, email, nonce, iat, exp⟩
  | _ => none

/-- The claims of a JSON text. -/
def ofJson (bytes : Bytes) : Except Json.Error (Option Claims) :=
  ofValues <$> parse record.read bytes

end Claims

/-- What limits the use of a token, as far as it says so. -/
structure Limits where
  /-- When it expires, unless that would have been before 1970. -/
  exp : Option Int
  iss : Option String
  aud : Option String
  deriving DecidableEq, Repr

namespace Limits

/-- The shape of the claims that limit the use of a token. A claim of another form counts as if it
were not there. -/
def record : Record (Option Claims.Value) where
  name := "ClaimsForValidation"
  members :=
    ["exp", "nbf"].map (fun name => withDefault name (attempt (readInteger.map .inr)) none) ++
      ["sub", "iss", "aud"].map fun name => withDefault name (attempt (readText.map .inl)) none
  others := none

/-- The limits of their values, of which the start of the lifetime and the subject are not used. -/
def ofValues : List (Option Claims.Value) → Option Limits
  | [exp, _, _, iss, aud] =>
    some
      { exp := (exp.bind Sum.getRight?).filter (0 ≤ ·)
        iss := iss.bind Sum.getLeft?
        aud := aud.bind Sum.getLeft? }
  | _ => none

/-- What limits the use of the claims of a JSON text. -/
def ofJson (bytes : Bytes) : Except Json.Error (Option Limits) :=
  ofValues <$> parse record.read bytes

end Limits

namespace IdToken

/-- Why a token is rejected. -/
inductive Error where
  /-- It has fewer than three parts. -/
  | parts
  | base64 (error : Base64.Error)
  | json (error : Json.Error)
  | algorithm
  | signature
  | noExpiry
  | expired
  | issuer
  | audience
  deriving DecidableEq, Repr

/-- The wording of the reason. -/
def Error.message : Error → String
  | .parts => "InvalidToken"
  | .base64 error => s!"Base64 error: {error.message}"
  | .json error => s!"JSON error: {error.message}"
  | .algorithm => "InvalidAlgorithm"
  | .signature => "InvalidSignature"
  | .noExpiry => "Missing required claim: exp"
  | .expired => "ExpiredSignature"
  | .issuer => "InvalidIssuer"
  | .audience => "InvalidAudience"

/-! ### Signing -/

/-- The secret that the mock broker and its clients share. -/
def secret : Bytes := Utf8.encode "brokerrp-mock-broker-secret"

/-- The signature of a text, in base64. -/
def sign (key : Bytes) (message : String) : String :=
  Base64.encode (Sha256.hmac key (Utf8.encode message))

/-- The header of every token that is issued. -/
def header : String := "\x7b\"typ\":\"JWT\",\"alg\":\"HS256\"\x7d"

/-- A text with its signature behind a dot. -/
def signed (key : Bytes) (message : String) : String := message ++ "." ++ sign key message

/-- The token with this payload. -/
def ofPayload (key : Bytes) (payload : String) : String :=
  signed key (Base64.encode (Utf8.encode header) ++ "." ++ Base64.encode (Utf8.encode payload))

/-- How long a token can be used, in seconds. -/
def lifetime : Int := 600

/-- For how long a token is still accepted afterwards, in seconds. -/
def leeway : Int := 60

/-- The claims of a token that is issued at `now`, in seconds. -/
def claims (issuer audience email nonce : String) (now : Int) : Claims where
  iss := issuer
  aud := audience
  sub := email
  email
  nonce
  iat := now
  exp := now + lifetime

/-- A token that is issued at `now`, in seconds. -/
def issue (issuer audience email nonce : String) (now : Int) : String :=
  ofPayload secret (claims issuer audience email nonce now).toJson

/-! ### Checking -/

/-- The text before the last dot and the text behind it. -/
def splitLast (token : List Char) : Option (List Char × List Char) :=
  match token.reverse.dropWhile (· ≠ '.') with
  | _ :: before => some (before.reverse, (token.reverse.takeWhile (· ≠ '.')).reverse)
  | [] => none

/-- The algorithms that a header can name. -/
def algorithms : List String :=
  ["HS256", "HS384", "HS512", "ES256", "ES384", "RS256", "RS384", "RS512", "PS256", "PS384",
    "PS512", "EdDSA"]

/-- The name of an algorithm, which comes next. -/
def readName : Reader String := fun _ c => do
  let c := c.skipBlanks
  match c.peek with
  | some '"' =>
    let (name, c) ← scanText c.advance
    if algorithms.contains name then return (name, c) else c.fail (.unknownVariant name algorithms)
  | _ => refuse "variant identifier" c

/-- Reads an algorithm: its name, or a mapping from its name to nothing. -/
def readAlgorithm : Reader String := fun depth c => do
  let c := c.skipBlanks
  match c.peek with
  | some '"' => readName depth c
  | some '{' =>
    if depth ≤ 1 then c.failAhead .nestedTooDeep
    else
      let (name, c) ← readName depth c.advance
      let c := (← skipColon c).skipBlanks
      let c ← match c.peek with
        | some 'n' => scanWord ['u', 'l', 'l'] c.advance
        | _ => refuse "unit" c
      let c := c.skipBlanks
      match c.peek with
      | some '}' => return (name, c.advance)
      | some _ => c.fail .expectedValue
      | none => c.fail .endInMapping
  | some _ => c.failAhead .expectedValue
  | none => c.failAhead .endInValue

/-! ### Keys in a header -/

/-- A value with all that is in it. -/
inductive Kept where
  | scalar (found : Found)
  | sequence (items : List Kept)
  | mapping (pairs : List (String × Kept))

namespace Kept

/-- What an error calls the value. -/
def found : Kept → Found
  | scalar found => found
  | sequence _ => .sequence
  | mapping _ => .mapping

/-- The text, if the value is one. -/
def text? : Kept → Option String
  | scalar (.text s) => some s
  | _ => none

/-- The name of a variant without content: it stands alone, or in a mapping before `null`. -/
def variant? : Kept → Option String
  | mapping [(name, scalar .null)] => some name
  | value => value.text?

/-- A mapping with any members. -/
def record (reader : Reader Kept) : Record Kept := ⟨"Jwk", [], some reader⟩

/-- Reads a value with at most `levels` sequences and mappings around each other. -/
def read (levels : Nat) : Reader Kept := fun depth c =>
  let c := c.skipBlanks
  match levels, c.peek with
  | levels + 1, some '[' => (readList (read levels)).map sequence depth c
  | levels + 1, some '{' => ((record (read levels)).readMapping pure).map mapping depth c
  | _, _ => (Reader.map scalar readAny) depth c

end Kept

/-- The shape of a key of one kind: whether it names a curve, and the texts that it consists of. -/
structure KeyShape where
  kind : String
  hasCurve : Bool
  texts : List String

/-- The kinds of keys. -/
def keyShapes : List KeyShape :=
  [⟨"EC", true, ["x", "y"]⟩, ⟨"RSA", false, ["n", "e"]⟩, ⟨"oct", false, ["k"]⟩,
    ⟨"OKP", true, ["x"]⟩]

/-- The curves that a key can name. -/
def curves : List String := ["P-256", "P-384", "P-521", "Ed25519"]

/-- Whether a mapping is a key of this shape, whatever else it holds. -/
def KeyShape.fits (shape : KeyShape) (pairs : List (String × Kept)) : Bool :=
  let isOnce (accepts : Kept → Bool) (name : String) : Bool :=
    match pairs.filter (·.1 == name) with
    | [(_, value)] => accepts value
    | _ => false
  isOnce (·.variant? == some shape.kind) "kty" &&
    (!shape.hasCurve || isOnce (fun v => v.variant?.any curves.contains) "crv") &&
    shape.texts.all (isOnce (·.text?.isSome))

/-- Checks a text. -/
def checkText (value : Kept) : Except Cause Unit :=
  if value.text?.isSome then return else throw (.wrongType value.found "a string")

/-- Checks a sequence of texts. -/
def checkTexts : Kept → Except Cause Unit
  | .sequence items => items.forM checkText
  | value => throw (.wrongType value.found "a sequence")

/-- Checks the name of an algorithm, which need not be a known one. It stands alone, or in a mapping
before `null` or an empty mapping. -/
def checkAlgorithm : Kept → Except Cause Unit
  | .mapping [(_, .scalar .null)] | .mapping [(_, .mapping [])] => return
  | .mapping [(_, value)] => throw (.wrongType value.found "unit")
  | .mapping _ => throw (.wrongValue .mapping "map with a single key")
  | value =>
    if value.text?.isSome then return else throw (.wrongType value.found "string or map")

/-- The members that describe a key, and how each is checked if it is not `null`. -/
def keyMembers : List (String × (Kept → Except Cause Unit)) :=
  [("use", checkText), ("key_ops", checkTexts), ("alg", checkAlgorithm), ("kid", checkText),
    ("x5u", checkText), ("x5c", checkTexts), ("x5t", checkText), ("x5t#S256", checkText)]

/-- Checks a key: what describes it is there once and of the right form, and it has the shape of
some kind. -/
def checkKey (pairs : List (String × Kept)) : Except Cause Unit := do
  let _ ← pairs.foldlM (fun seen (name, value) => do
    match keyMembers.lookup name, value with
    | none, _ => return seen
    | some check, value =>
      if seen.contains name then throw (.duplicateField name)
      if value.found ≠ .null then check value
      return name :: seen) ([] : List String)
  if keyShapes.any (·.fits pairs) then return else throw (.noVariant "AlgorithmParameters")

/-- Any mapping, read as a key. -/
def keyRecord : Record Kept := Kept.record (Kept.read depthLimit)

/-- Reads a key, which is not used. -/
def readKey : Reader Unit := fun depth c =>
  let c := c.skipBlanks
  match c.peek with
  | some '{' => keyRecord.readMapping checkKey depth c
  | _ => refuse keyRecord.title c

/-- The shape of a header; only the algorithm counts. -/
def headerRecord : Record (Option String) :=
  let skipped {α : Type} (reader : Reader α) : Reader (Option String) :=
    (optional reader).map fun _ => none
  let text (name : String) : Member (Option String) := ⟨name, skipped readText, some none, none⟩
  { name := "Header"
    members := [text "typ", required "alg" (readAlgorithm.map some), text "cty", text "jku",
      ⟨"jwk", skipped readKey, some none, none⟩, text "kid", text "x5u",
      ⟨"x5c", skipped (readList readText), some none, none⟩, text "x5t", text "x5t#S256"]
    others := none }

/-- The bytes of a part of a token. -/
def readPart (part : List Char) : Except Error Bytes :=
  match Base64.decode (String.ofList part) with
  | .ok bytes => .ok bytes
  | .error e => .error (.base64 e)

/-- The algorithm that the header of a token names. -/
def readHeader (part : List Char) : Except Error (Option String) := do
  match parse headerRecord.read (← readPart part) with
  | .ok values => return values.findSome? id
  | .error e => throw (.json e)

/-- What is read from the JSON of a part of a token. -/
def ofJson {α : Type} (read : Bytes → Except Json.Error (Option α)) (bytes : Bytes) :
    Except Error α :=
  match read bytes with
  | .ok (some a) => .ok a
  | .ok none => .error .parts
  | .error e => .error (.json e)

/-- The claims of a token, and what limits their use. -/
def readClaims (part : List Char) : Except Error (Claims × Limits) := do
  let bytes ← readPart part
  return (← ofJson Claims.ofJson bytes, ← ofJson Limits.ofJson bytes)

/-- Checks lifetime, issuer and audience at the time `now`, in seconds. The lifetime has to be
limited; a token that names no issuer or no audience is for all of them. -/
def checkLimits (issuer audience : String) (now : Int) (limits : Limits) : Except Error Unit :=
  match limits.exp with
  | none => .error .noExpiry
  | some exp =>
    if exp < now - leeway then .error .expired
    else if limits.iss.any (· ≠ issuer) then .error .issuer
    else if limits.aud.any (· ≠ audience) then .error .audience
    else .ok ()

/-- The claims of a token that was signed with the shared secret, names this issuer and audience and
can be used at the time `now`, in seconds. -/
def decode (token issuer audience : String) (now : Int) : Except Error Claims :=
  match splitLast token.toList with
  | none => .error .parts
  | some (message, signature) =>
    match splitLast message with
    | none => .error .parts
    | some (headerPart, claimsPart) => do
      if (← readHeader headerPart) ≠ some "HS256" then throw .algorithm
      if String.ofList signature ≠ sign secret (String.ofList message) then throw .signature
      let (claims, limits) ← readClaims claimsPart
      checkLimits issuer audience now limits
      return claims

end IdToken

end SignIn.Mock
