import SignIn.Callback.Params

/-!
# Outcome events

Every callback that is handled to its end is announced by one event. An event of a failure carries
the callback as it came in, extra fields included; an event of a success carries the identity and
nothing else.

## Main definitions

* `Event` — what is announced
* `Event.Kind` — what a listener can choose by
-/

namespace SignIn

/-- What can be listened to. -/
inductive Event.Kind where
  | gotError
  | invalidToken
  | verified
  deriving DecidableEq, Repr

/-- All kinds. -/
def Event.Kind.all : List Event.Kind := [gotError, invalidToken, verified]

/-- The end of one callback. -/
inductive Event where
  /-- The broker or its token endpoint reported a failure. -/
  | gotError (params : Callback.Params)
  /-- The token of the callback was rejected. -/
  | invalidToken (params : Callback.Params)
  /-- The token asserts this identity. -/
  | verified (identity : String)
  deriving DecidableEq, Repr

/-- The kind of an event. -/
def Event.kind : Event → Event.Kind
  | .gotError _ => .gotError
  | .invalidToken _ => .invalidToken
  | .verified _ => .verified

end SignIn
