import SignIn.Http.Message

/-!
# What a handler takes out of a request

A handler asks for a form, in the body or in the query. A body is a form only if the request says
so, in exactly these letters, and only up to a length. A body can also break off: then something
went wrong behind the bytes that have arrived, and they do not count.

Some handlers ask for named fields. A field that comes twice is a fault, and so is a missing one
that has no default; other fields do not matter. The first field that comes again is reported before
any that is missing.

## Main definitions

* `Http.Rejection` — why a request is refused, `Http.Rejection.response` how it is answered
* `Http.Request.bodyForm`, `Http.Request.bodyFields`, `Http.Request.queryFields`
-/

namespace SignIn.Http

/-- What is wrong with the fields of a form. -/
inductive FieldError where
  | missing (name : String)
  | duplicate (name : String)
  deriving DecidableEq, Repr

/-- The wording of the fault. -/
def FieldError.message : FieldError → String
  | .missing name => s!"missing field `{name}`"
  | .duplicate name => s!"duplicate field `{name}`"

/-- Why a request is refused before it is handled. -/
inductive Rejection where
  | contentType
  | tooLong
  /-- The body broke off. -/
  | unreadable (reason : String)
  | body (error : FieldError)
  | query (error : FieldError)
  deriving DecidableEq, Repr

/-- The answer to a refused request. -/
def Rejection.response : Rejection → Response
  | .contentType => .text 415 s!"Form requests must have `Content-Type: {Request.formType}`"
  | .tooLong => .text 413 "Failed to buffer the request body: length limit exceeded"
  | .unreadable reason => .text 400 s!"Failed to buffer the request body: {reason}"
  | .body error => .text 422 s!"Failed to deserialize form body: {error.message}"
  | .query error => .text 400 s!"Failed to deserialize query string: {error.message}"

/-- A field that a handler asks for. Without a default it must be there. -/
structure Field where
  name : String
  absent : Option String
  deriving DecidableEq, Repr

/-- A field that must be there. -/
def Field.required (name : String) : Field := ⟨name, none⟩

/-- A field that reads as the empty text when it is missing. -/
def Field.withDefault (name : String) : Field := ⟨name, some ""⟩

/-- The first of these names that comes a second time. -/
def firstRepeated? (names : List String) : List String → (seen : List String) → Option String
  | [], _ => none
  | n :: ns, seen =>
    if names.contains n then
      if seen.contains n then some n else firstRepeated? names ns (n :: seen)
    else firstRepeated? names ns seen

/-- The values of fields, in their order. -/
def readFields (fields : List Field) (form : Form) : Except FieldError (List String) :=
  match firstRepeated? (fields.map (·.name)) (form.map Prod.fst) [] with
  | some name => .error (.duplicate name)
  | none => fields.mapM fun f =>
    match form.lookup f.name <|> f.absent with
    | some value => .ok value
    | none => .error (.missing f.name)

namespace Request

/-- The longest body that is read. -/
def bodyLimit : Nat := 2 * 1024 * 1024

/-- Whether the request says that its body is a form. -/
def saysForm (r : Request) : Bool :=
  match r.contentType with
  | some type =>
    type.toList.all (fun c => c = '\t' || (0x20 ≤ c.toNat && c.toNat < 0x7F)) &&
      formType.toList.isPrefixOf type.toList
  | none => false

/-- The pairs of a form in the body, unless there was a fault because of which it broke off. -/
def bodyForm (r : Request) (fault : Option String := none) : Except Rejection Form :=
  if !r.saysForm then .error .contentType
  else if bodyLimit < r.body.length then .error .tooLong
  else match fault with
    | some reason => .error (.unreadable reason)
    | none => .ok (Form.decode r.body)

/-- The values of fields of a form in the body. -/
def bodyFields (r : Request) (fields : List Field) (fault : Option String := none) :
    Except Rejection (List String) := do
  (readFields fields (← r.bodyForm fault)).mapError .body

/-- The values of fields of the query. -/
def queryFields (r : Request) (fields : List Field) : Except Rejection (List String) :=
  (readFields fields r.queryForm).mapError .query

end Request

end SignIn.Http
