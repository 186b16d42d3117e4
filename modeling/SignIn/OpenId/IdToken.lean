import SignIn.Broker.Client
import SignIn.OpenId.Provider

/-!
# ID tokens of a broker

A token is first read and then checked. Reading it goes through its three parts in order. After that
the first fault counts, in this order: the kind of token, issuer, audience, signature, lifetime. The
issuer and the audience come before the signature, so a token of somebody else is reported as that.

A signature is checked with the one key that may have made it. All faults of a signature read the
same.

## Main definitions

* `OpenId.IdToken.check` — what a token says, if it is genuine
* `OpenId.IdToken.Fault`, `OpenId.IdToken.Fault.message` — why it is not
-/

namespace SignIn.OpenId.IdToken

open Json

/-- Why a token is not genuine. -/
inductive Fault where
  | parts (number : Nat)
  /-- A part is not in base64. -/
  | encoding (part : String) (error : Base64.Error)
  /-- A part is not the JSON that it should be. -/
  | json (part : String) (error : Json.Error)
  | kind (kind : String)
  | contentType (kind : String)
  | critical
  | issuer (found expected : String)
  /-- The client is not in the audience. -/
  | audience (found : List String) (expected : String)
  /-- Somebody else is in the audience. -/
  | stranger (name : String)
  | signature
  | expired (expiry now : String)
  deriving DecidableEq, Repr

/-- The wording of a fault in base64. -/
def encodingMessage : Base64.Error → String
  | .symbol byte offset => s!"InvalidByte({offset}, {byte.toNat})"
  | .length n => s!"InvalidLength({n})"
  | .lastSymbol byte offset => s!"InvalidLastSymbol({offset}, {byte.toNat})"
  | .padding => "InvalidPadding"

/-- The wording of a fault in JSON. -/
def jsonMessage (e : Json.Error) : String :=
  let cause := Quoted.quote e.cause.message
  s!"Error({cause}, line: {e.line}, column: {e.column})"

/-- The wording of a fault. -/
def Fault.message : Fault → String
  | .parts n => s!"Invalid JSON web token: found {n} parts (expected 3)"
  | .encoding part e => s!"Invalid base64url {part} encoding: {encodingMessage e}"
  | .json part e => s!"Failed to parse {part} JSON: {jsonMessage e}"
  | .kind k => s!"Unsupported: unexpected or unsupported JWT type `{k}`"
  | .contentType k =>
    if k.toUpper = "JWT" then "Unsupported: nested or encrypted JWTs are not currently supported"
    else s!"Unsupported: unexpected or unsupported JWT content type `{k}`"
  | .critical => "Unsupported: critical JWT header fields are unsupported"
  | .issuer found expected =>
    s!"Invalid issuer: unexpected issuer URI `{found}` (expected `{expected}`)"
  | .audience found expected =>
    let audiences := String.intercalate ", " (found.map fun a => s!"`{a}`")
    s!"Invalid audiences: must contain `{expected}` (found audiences: {audiences})"
  | .stranger name => s!"Invalid audiences: `{name}` is not a trusted audience"
  | .signature => "Signature verification failed"
  | .expired e now => s!"Expired: ID token expired at {e} (current time is {now})"

/-! ### Reading -/

/-- The header of a token. -/
structure Header where
  algorithm : String
  kind : Option String
  contentType : Option String
  keyId : Option String
  hasCritical : Bool
  deriving DecidableEq, Repr

/-- The claims of a token, as far as they are looked at. -/
structure Claims where
  issuer : String
  audience : List String
  /-- When the token expires, in seconds since the start of 1970. -/
  expiry : Int
  email : Option String
  nonce : Option String
  deriving DecidableEq, Repr

/-- A token that was read. -/
structure Token where
  header : Header
  claims : Claims
  /-- What is signed. -/
  message : Bytes
  signature : Bytes
  deriving DecidableEq, Repr

/-- The value of a member: a text or a list of texts, if it is there. -/
abbrev Part := Option (List String)

/-- A text that may be missing. -/
def optionalPart (name : String) : Member Part :=
  ⟨name, (optional readText).map (·.map ([·])), some none, some none⟩

/-- A list of texts that may be missing. -/
def optionalList (name : String) : Member Part :=
  ⟨name, optional (readList readText), some none, some none⟩

/-- The shape of a header. -/
def headerRecord : Record Part where
  name := "JsonWebTokenHeader"
  members := [required "alg" (readText.map fun t => some [t]), optionalPart "typ",
    optionalPart "cty", optionalPart "kid", optionalList "crit"]
  others := none

/-- The text of a member. -/
def Part.text? (p : Part) : Option String := p.bind List.head?

/-- The header of its values. -/
def headerOf : List Part → Header
  | [algorithm, kind, contentType, keyId, critical] =>
    ⟨(Part.text? algorithm).getD "", Part.text? kind, Part.text? contentType, Part.text? keyId,
      critical.isSome⟩
  | _ => ⟨"", none, none, none, false⟩

/-- Reads an audience: one text or a list of them. -/
def readAudience : Reader (List String) := fun depth c =>
  match c.skipBlanks.peek with
  | some '[' => readList readText depth c
  | _ => readText.map ([·]) depth c

/-- The shape of the claims. -/
def claimsRecord : Record (Part ⊕ Int) where
  name := "IdTokenClaims"
  members := [required "iss" (readText.map fun t => .inl (some [t])),
    required "aud" (readAudience.map fun a => .inl (some a)),
    required "exp" (readInteger.map .inr), required "iat" (readInteger.map .inr),
    required "sub" (readText.map fun t => .inl (some [t])),
    ⟨"email", (optional readText).map fun t => .inl (t.map ([·])), some (.inl none), none⟩,
    ⟨"nonce", (optional readText).map fun t => .inl (t.map ([·])), some (.inl none), none⟩]
  others := none

/-- The claims of their values. -/
def claimsOf : List (Part ⊕ Int) → Claims
  | [.inl issuer, .inl audience, .inr expiry, _, _, .inl email, .inl nonce] =>
    ⟨(Part.text? issuer).getD "", audience.getD [], expiry, Part.text? email, Part.text? nonce⟩
  | _ => ⟨"", [], 0, none, none⟩

/-- The bytes of a part. -/
def decodePart (name part : String) : Except Fault Bytes :=
  (Base64.decode part).mapError (.encoding name)

/-- Reads a token. -/
def read (token : String) : Except Fault Token :=
  match token.splitOn "." with
  | [headerPart, claimsPart, signaturePart] => do
    let header ← (parse headerRecord.read (← decodePart "header" headerPart)).mapError
      (.json "header")
    let claims ← (parse claimsRecord.read (← decodePart "payload" claimsPart)).mapError
      (.json "payload")
    let signature ← decodePart "signature" signaturePart
    let message := Utf8.encode (headerPart ++ "." ++ claimsPart)
    return ⟨headerOf header, claimsOf claims, message, signature⟩
  | parts => .error (.parts parts.length)

/-! ### Checking -/

/-- Checks that a token is one that can be read here. -/
def checkHeader (h : Header) : Except Fault Unit := do
  match h.kind with
  | some kind => if kind ≠ "JWT" then throw (.kind kind)
  | none => pure ()
  match h.contentType with
  | some kind => throw (.contentType kind)
  | none => pure ()
  if h.hasCritical then throw .critical

/-- Checks for whom a token is. -/
def checkAudience (clientId : String) (audience : List String) : Except Fault Unit :=
  if ¬audience.contains clientId then .error (.audience audience clientId)
  else match audience.find? (· ≠ clientId) with
    | some name => .error (.stranger name)
    | none => .ok ()

/-- Checks the signature of a token. -/
def checkSignature (p : Provider) (t : Token) : Except Fault Unit :=
  let candidates := p.keys.filter fun k => t.header.keyId.all (k.keyId == some ·)
  match candidates with
  | [k] =>
    if t.header.algorithm = "RS256" ∧ p.description.algorithms.contains "RS256" ∧
        k.key.verify t.message t.signature then .ok ()
    else .error .signature
  | _ => .error .signature

/-- What a token says, if it is genuine. -/
def check (p : Provider) (clientId token : String) (now : Instant) :
    Except Fault Broker.Statement := do
  let t ← read token
  checkHeader t.header
  if t.claims.issuer ≠ p.description.issuer then
    throw (.issuer t.claims.issuer p.description.issuer)
  checkAudience clientId t.claims.audience
  checkSignature p t
  if t.claims.expiry * 1000 ≤ now then
    throw (.expired (Instant.toText (t.claims.expiry * 1000)) (Instant.toText now))
  return ⟨t.claims.email, t.claims.nonce⟩

end SignIn.OpenId.IdToken
