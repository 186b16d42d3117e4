import SignIn.Crypto.Rsa
import SignIn.Json.Record
import SignIn.Text.Base64
import SignIn.Url.Parse

/-!
# What a broker publishes

A broker that speaks OpenID Connect publishes two documents. One describes the broker: who it is,
where authentications start, how tokens are signed and where the other document is. The other one
lists the keys.

Of the description all members that the protocol prescribes have to be there. Of the keys those that
cannot be read are skipped, since a key of a kind that is not known here does no harm.

## Main definitions

* `OpenId.Description`, `OpenId.Description.ofJson?`
* `OpenId.SigningKey`, `OpenId.SigningKey.listOfJson?`
* `OpenId.Provider` — a broker with all that was published
-/

namespace SignIn.OpenId

open Json

/-- A text or a list of texts. -/
abbrev Value := String ⊕ List String

/-- A member that is a text. -/
def text (name : String) : Member Value := required name (readText.map .inl)

/-- A member that is a list of texts. -/
def texts (name : String) : Member Value := required name ((readList readText).map .inr)

/-! ### The description -/

/-- How a broker describes itself. -/
structure Description where
  /-- The issuer, as it is written. -/
  issuer : String
  authorizationEndpoint : Url
  keysUrl : Url
  /-- The algorithms with which tokens may be signed. -/
  algorithms : List String
  deriving Repr

namespace Description

/-- The shape of a description. -/
def record : Record Value where
  name := "Description"
  members := [text "issuer", text "authorization_endpoint", text "jwks_uri",
    texts "response_types_supported", texts "subject_types_supported",
    texts "id_token_signing_alg_values_supported"]
  others := none

/-- A description is a mapping. -/
def isMapping (bytes : Bytes) : Bool := (Cursor.ofBytes bytes).skipBlanks.peek == some '{'

/-- The description of its values. -/
def ofValues? : List Value → Option Description
  | [.inl issuer, .inl endpoint, .inl keys, _, _, .inr algorithms] =>
    match Url.parse issuer, Url.parse endpoint, Url.parse keys with
    | .ok _, .ok authorizationEndpoint, .ok keysUrl =>
      some ⟨issuer, authorizationEndpoint, keysUrl, algorithms⟩
    | _, _, _ => none
  | _ => none

/-- The description in a JSON text. -/
def ofJson? (bytes : Bytes) : Option Description :=
  if isMapping bytes then (parse record.read bytes).toOption.bind ofValues? else none

end Description

/-! ### Keys -/

/-- A key with which tokens are signed. -/
structure SigningKey where
  /-- What the key is called, if it has a name. -/
  keyId : Option String
  key : Rsa.Key
  deriving DecidableEq, Repr

namespace SigningKey

/-- A member that may be missing. -/
def optionalText (name : String) : Member (Option String) :=
  ⟨name, optional readText, some none, some none⟩

/-- The shape of a key. -/
def record : Record (Option String) where
  name := "Key"
  members := ["kty", "use", "kid", "alg", "n", "e"].map optionalText
  others := none

/-- The number of a text in base64. -/
def number? (text : Option String) : Option Nat :=
  (text.bind fun t => (Base64.decode t).toOption).map Rsa.toNumber

/-- The key of its values, if it can be used to check a token. -/
def ofValues? : List (Option String) → Option SigningKey
  | [kind, use, keyId, algorithm, n, e] =>
    match number? n, number? e with
    | some modulus, some exponent =>
      if kind = some "RSA" ∧ use.all (· == "sig") ∧ algorithm.all (· == "RS256") then
        some ⟨keyId, modulus, exponent⟩
      else none
    | _, _ => none
  | _ => none

/-- Reads a key, if it is one that can be used, and any other value otherwise. -/
def readLenient : Reader (Option SigningKey) := fun depth c =>
  match record.read depth c with
  | .ok (values, c) => .ok (ofValues? values, c)
  | .error _ => do return (none, ← walk .keep depth c)

/-- The shape of a list of keys. -/
def listRecord : Record (List (Option SigningKey)) where
  name := "Keys"
  members := [required "keys" (readList readLenient)]
  others := none

/-- The keys in a JSON text. -/
def listOfJson? (bytes : Bytes) : Option (List SigningKey) :=
  (parse listRecord.read bytes).toOption.map fun lists => lists.flatten.filterMap id

end SigningKey

/-- A broker with all that was published. -/
structure Provider where
  description : Description
  keys : List SigningKey
  deriving Repr

end SignIn.OpenId
