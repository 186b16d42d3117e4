import SignIn.Http.Message
import SignIn.Url.Basic

/-!
# Where a request can be sent

A request is addressed by a URL, but not every URL is an address. An address starts with a scheme
and two slashes, and behind them it names a place: a host that may have a user before it and a port
behind it. The place may hold fewer characters than the host of a URL, and only a user may be
escaped. What follows the place does not matter, except that neither the whole, with its fragment,
nor the scheme may be too long.

## Main definitions

* `Http.AddressFault`, `Http.AddressFault.message` — why a URL is no address
* `Http.addressFault?` — what is wrong with a URL, if anything is
-/

namespace SignIn.Http

/-- Why a URL is no address. -/
inductive AddressFault where
  /-- It is too long. -/
  | length
  /-- Its scheme is too long. -/
  | scheme
  /-- It names no place. -/
  | format
  /-- The parts of the place do not fit together. -/
  | place
  /-- A character cannot stand in a place. -/
  | character
  deriving DecidableEq, Repr

/-- The wording of a fault. -/
def AddressFault.message : AddressFault → String
  | .length => "uri too long"
  | .scheme => "scheme too long"
  | .format => "invalid format"
  | .place => "invalid authority"
  | .character => "invalid uri character"

/-- Whether a character can stand in a place. A percent sign is looked at separately. -/
def isPlaceChar (c : Char) : Bool := c.isAlphanum || "!$%&'()*+,-.:;=@[]_~".toList.contains c

/-- The characters behind the user, or all if there is none. -/
def behindUser (place : List Char) : List Char := (place.reverse.takeWhile (· ≠ '@')).reverse

/-- The characters behind the brackets of a host, or all if there are none. -/
def behindBrackets (host : List Char) : List Char := (host.reverse.takeWhile (· ≠ ']')).reverse

/-- What is wrong with a place, if anything is. Brackets come in one pair, a host without them has
at most one colon, and nothing behind the user is escaped. -/
def placeFault? (place : List Char) : Option AddressFault :=
  let host := behindUser place
  if !place.all isPlaceChar then some .character
  else if place.count '[' ≠ place.count ']' ∨ 1 < place.count '[' ∨ host.isEmpty ∨
      1 < (behindBrackets host).count ':' ∨ (behindBrackets host).contains '%' then some .place
  else none

/-- How many characters a scheme can have. -/
def schemeLimit : Nat := 64

/-- The scheme of a URL's text, if two slashes stand behind it, and the part of the text in which
the place has to be. -/
def placeOf (text : List Char) : Option (List Char) × List Char :=
  let name := text.takeWhile fun c => c.isAlphanum || c = '+' || c = '-' || c = '.'
  let (scheme, rest) := match text.drop name.length with
    | ':' :: '/' :: '/' :: rest => (some name, rest)
    | _ => (none, text)
  (scheme, rest.takeWhile fun c => c ≠ '/' && c ≠ '?' && c ≠ '#')

/-- What is wrong with a URL as an address, if anything is. -/
def addressFault? (url : Url) : Option AddressFault :=
  let (scheme, place) := placeOf url.toText.toList
  if uriLimit < (Utf8.encode url.toText).length then some .length
  else if scheme.any (schemeLimit < ·.length) then some .scheme
  else if place.isEmpty then some .format
  else match placeFault? place with
    | some fault => some fault
    | none => if scheme.isSome then none else some .format

end SignIn.Http
