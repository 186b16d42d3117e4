import SignIn.Url.Host

/-!
# Reading URLs

A URL is read from left to right, and each part ends where the marks of the next ones begin. Reading
is forgiving about spelling: blanks around the text and line breaks in it do not count, special
schemes take a backslash for a slash and do with any number of slashes before the host, dots in the
path are resolved, and what a part must not hold is escaped.

A text without a scheme is resolved against a base.

## Main definitions

* `Url.parse` — a URL on its own
* `Url.join` — a text resolved against a URL
-/

namespace SignIn.Url

/-! ### What a part keeps as it is -/

/-- The characters that a fragment escapes, besides controls and what is not ASCII. -/
def fragmentEscapes : List Char := " \"<>`".toList

/-- The same for a path. -/
def pathEscapes : List Char := fragmentEscapes ++ "#?\x7b\x7d".toList

/-- The same for a user name or password. -/
def userinfoEscapes : List Char := pathEscapes ++ "/:;=@[\\]^|".toList

/-- The same for a query; special schemes escape the apostrophe, too. -/
def queryEscapes (special : Bool) : List Char :=
  " \"#<>".toList ++ if special then ['\''] else []

/-- A part with its escapes. -/
def escapePart (escapes : List Char) (text : List Char) : String :=
  Percent.encode (fun b => 0x20 ≤ b && b < 0x7F && !escapes.contains (Char.ofNat b.toNat))
    (String.ofList text)

/-! ### Scheme -/

/-- The characters of a scheme behind its first letter. -/
def isSchemeChar (c : Char) : Bool := c.isAlphanum || c = '+' || c = '-' || c = '.'

/-- The scheme at the front of a text and what follows its colon. -/
def splitScheme (text : List Char) : Option (String × List Char) :=
  match text with
  | c :: _ =>
    if c.isAlpha then
      match text.dropWhile isSchemeChar with
      | ':' :: rest => some (String.ofList ((text.takeWhile isSchemeChar).map Char.toLower), rest)
      | _ => none
    else none
  | [] => none

/-! ### Path, query and fragment -/

/-- Whether a character separates segments. -/
def isSlash (special : Bool) (c : Char) : Bool := c = '/' || (special && c = '\\')

/-- Whether a character ends the path. -/
def endsPath (c : Char) : Bool := c = '?' || c = '#'

/-- The characters of a segment, with the dots that are written as escapes. -/
def withDots : List Char → List Char
  | '%' :: '2' :: 'e' :: rest => '.' :: withDots rest
  | '%' :: '2' :: 'E' :: rest => '.' :: withDots rest
  | c :: rest => c :: withDots rest
  | [] => []

/-- What the segment does that is written like this: one dot stays, two dots go up. -/
def dotCount (segment : String) : Nat :=
  match withDots segment.toList with
  | ['.'] => 1
  | ['.', '.'] => 2
  | _ => 0

/-- A letter and a colon or bar: the name of a drive. -/
def isDrive (segment : String) : Bool :=
  match segment.toList with
  | [letter, mark] => letter.isAlpha && (mark = ':' || mark = '|')
  | _ => false

/-- The parent of a path. The root has none, and in a file URL neither has a drive. -/
def parent (file : Bool) (segments : List String) : List String :=
  match segments with
  | [drive] => if file && isDrive drive && drive.toList.getLast? = some ':' then segments else []
  | _ => segments.dropLast

/-- A path with one more segment. `last` tells that no slash follows it. -/
def addSegment (file last : Bool) (segments : List String) (segment : String) : List String :=
  match dotCount segment with
  | 2 => if last then parent file segments ++ [""] else parent file segments
  | 1 => if last then segments ++ [""] else segments
  | _ =>
    if file && segments.isEmpty && isDrive segment then
      [String.ofList (segment.toList.take 1) ++ ":"]
    else segments ++ [segment]

/-- A path with more segments. -/
def addSegments (file : Bool) : List String → List String → List String
  | base, [] => base
  | base, [last] => addSegment file true base last
  | base, segment :: rest => addSegments file (addSegment file false base segment) rest

/-- The segments of a text between slashes, with their escapes. -/
def segmentTexts (special : Bool) (text : List Char) : List String :=
  (splitChars '/' (text.map fun c => if isSlash special c then '/' else c)).map
    (escapePart pathEscapes)

/-- A file URL has no empty segments at the start of its path. -/
def trimFilePath (file : Bool) (segments : List String) : List String :=
  if file then
    let trimmed := segments.dropWhile (· = "")
    if trimmed.isEmpty then [""] else trimmed
  else segments

/-- The segments from `base` on along a text, which does not start with the slash behind `base`. -/
def segmentsFrom (scheme : String) (base : List String) (text : List Char) : List String :=
  addSegments (scheme == "file") base (segmentTexts (isSpecial scheme) text)

/-- The path from `base` on along such a text. -/
def pathFrom (scheme : String) (base : List String) (text : List Char) : Path :=
  .segments (trimFilePath (scheme == "file") (segmentsFrom scheme base text))

/-- The path of a text that starts at the end of the host. -/
def pathBehindHost (scheme : String) (text : List Char) : Path :=
  match text with
  | [] => if isSpecial scheme then .segments [""] else .segments []
  | c :: rest =>
    if isSlash (isSpecial scheme) c then pathFrom scheme [] rest else pathFrom scheme [] text

/-- What comes before the query and fragment of a text. -/
def beforeQuery (text : List Char) : List Char := text.takeWhile (!endsPath ·)

/-- The fragment of a text, if it has one. -/
def fragmentOf (text : List Char) : Option String :=
  match text.dropWhile (· ≠ '#') with
  | _ :: rest => some (escapePart fragmentEscapes rest)
  | [] => none

/-- The query of a text, if it has one. -/
def queryOf (special : Bool) (text : List Char) : Option String :=
  match (text.takeWhile (· ≠ '#')).dropWhile (· ≠ '?') with
  | _ :: rest => some (escapePart (queryEscapes special) rest)
  | [] => none

/-! ### Authority -/

/-- Whether a character ends the authority. -/
def endsAuthority (special : Bool) (c : Char) : Bool := isSlash special c || endsPath c

/-- The text before the last `@`, if there is one, and the text behind it. -/
def splitUserinfo (authority : List Char) : Option (List Char) × List Char :=
  match authority.reverse.dropWhile (· ≠ '@') with
  | _ :: before => (some before.reverse, (authority.reverse.takeWhile (· ≠ '@')).reverse)
  | [] => (none, authority)

/-- The host and what follows it: it ends at a colon outside brackets. -/
def splitHost (inBrackets : Bool) : List Char → List Char × List Char
  | [] => ([], [])
  | c :: rest =>
    if c = ':' && !inBrackets then ([], c :: rest)
    else
      let inBrackets := c = '[' || (inBrackets && c ≠ ']')
      let (host, behind) := splitHost inBrackets rest
      (c :: host, behind)

/-- The port that digits name; none, or the default of the scheme, is absent. -/
def readPort (scheme : String) (digits : List Char) : Except ParseError (Option Nat) :=
  if digits.isEmpty then .ok none
  else match Host.number? 10 digits with
    | some port =>
      if 65535 < port then .error .invalidPort
      else .ok (if some port = defaultPort? scheme then none else some port)
    | none => .error .invalidPort

/-- A URL from behind the double slash. -/
def readAuthority (scheme : String) (text : List Char) : Except ParseError Url := do
  let special := isSpecial scheme
  let authority := text.takeWhile (!endsAuthority special ·)
  let rest := text.dropWhile (!endsAuthority special ·)
  let (userinfo, hostPort) := splitUserinfo authority
  if userinfo = some [] ∧ hostPort.isEmpty ∧ ¬rest.isEmpty then throw .emptyHost
  let user := (userinfo.getD []).takeWhile (· ≠ ':')
  let password := ((userinfo.getD []).dropWhile (· ≠ ':')).drop 1
  let (hostText, portPart) := splitHost false hostPort
  let needsHost := special ∨ ¬portPart.isEmpty
  if hostText.isEmpty ∧ needsHost then throw .emptyHost
  let host ← if special then Host.ofSpecial hostText else Host.ofOther hostText
  -- A backslash ends the digits of a port in any URL, and the path begins with it.
  let digits := (portPart.drop 1).takeWhile (· ≠ '\\')
  let rest := (portPart.drop 1).dropWhile (· ≠ '\\') ++ rest
  let port ← readPort scheme digits
  if hostText.isEmpty ∧ ¬(user.isEmpty ∧ password.isEmpty) then throw .emptyHost
  return {
    scheme
    username := escapePart userinfoEscapes user
    password := escapePart userinfoEscapes password
    host := some host
    port
    path := pathBehindHost scheme (beforeQuery rest)
    query := queryOf special rest
    fragment := fragmentOf rest }

/-! ### File URLs -/

/-- The host of a file on the same machine. -/
def noHost : Host := .domain ""

/-- A file URL with this host and path. -/
def fileUrl (host : Host) (path : Path) (text : List Char) : Url where
  scheme := "file"
  username := ""
  password := ""
  host := some host
  port := none
  path
  query := queryOf true text
  fragment := fragmentOf text

/-- The first segment of a URL's path. -/
def firstSegment (u : Url) : String :=
  match u.path with
  | .segments (first :: _) => first
  | _ => ""

/-- Whether a text starts with a drive as its first segment. -/
def startsWithDrive (text : List Char) : Bool :=
  isDrive (String.ofList (text.takeWhile fun c => !endsAuthority true c))

/-- A file URL from behind a double slash. -/
def readFileHost (text : List Char) : Except ParseError Url := do
  let hostText := text.takeWhile (!endsAuthority true ·)
  let behind := text.dropWhile (!endsAuthority true ·)
  if isDrive (String.ofList hostText) then
    return fileUrl noHost (pathFrom "file" [] (beforeQuery text)) text
  let host ← if hostText.isEmpty then pure noHost else Host.ofSpecial hostText
  let path := beforeQuery (if behind.head?.any (isSlash true) then behind.drop 1 else behind)
  let onDrive := (segmentsFrom "file" [] path).head?.any isDrive
  let host := if onDrive ∨ host = .domain "localhost" then noHost else host
  return fileUrl host (pathFrom "file" [] path) behind

/-- A file URL from behind a single slash: the host and the drive of the base stay. -/
def readFileRoot (base : Option Url) (text : List Char) : Url :=
  let (host, start) := match base with
    | some u =>
      if startsWithDrive text then (noHost, [])
      else if isDrive u.firstSegment then (noHost, [u.firstSegment])
      else (u.host.getD noHost, [])
    | none => (noHost, [])
  fileUrl host (pathFrom "file" start (beforeQuery text)) text

/-- A file URL without a slash in front: the path of the base stays but for its last segment. -/
def readFileRelative (base : Option Url) (text : List Char) : Url :=
  match base, text with
  | none, _ => fileUrl noHost (pathFrom "file" [] (beforeQuery text)) text
  | some u, [] => { u with fragment := none }
  | some u, '?' :: _ => { u with query := queryOf true text, fragment := fragmentOf text }
  | some u, '#' :: _ => { u with fragment := fragmentOf text }
  | some u, _ =>
    if startsWithDrive text then fileUrl noHost (pathFrom "file" [] (beforeQuery text)) text
    else
      let start := match u.path with
        | .segments segments => parent true segments
        | .rootless _ => []
      fileUrl (u.host.getD noHost) (pathFrom "file" start (beforeQuery text)) text

/-- A file URL from behind `file:`, where `base` is another file URL. -/
def readFile (base : Option Url) (text : List Char) : Except ParseError Url :=
  match text with
  | a :: b :: rest =>
    if isSlash true a && isSlash true b then readFileHost rest
    else if isSlash true a then .ok (readFileRoot base (b :: rest))
    else .ok (readFileRelative base text)
  | [a] => .ok (if isSlash true a then readFileRoot base [] else readFileRelative base text)
  | [] => .ok (readFileRelative base text)

/-! ### Relative URLs -/

/-- A text without a scheme, resolved against a URL whose path has segments. -/
def readRelative (base : Url) (text : List Char) : Except ParseError Url :=
  let special := isSpecial base.scheme
  let withPath (path : Path) (text : List Char) : Url :=
    { base with path, query := queryOf special text, fragment := fragmentOf text }
  match text with
  | [] => .ok { base with fragment := none }
  | '?' :: _ => .ok { base with query := queryOf special text, fragment := fragmentOf text }
  | '#' :: _ => .ok { base with fragment := fragmentOf text }
  | a :: rest =>
    if isSlash special a then
      match rest with
      | b :: rest' =>
        if isSlash special b then
          readAuthority base.scheme (if special then rest'.dropWhile (isSlash true) else rest')
        else .ok (withPath (pathFrom base.scheme [] (beforeQuery rest)) rest)
      | [] => .ok (withPath (pathFrom base.scheme [] []) [])
    else
      let start := match base.path with
        | .segments segments => parent false segments
        | .rootless _ => []
      .ok (withPath (pathFrom base.scheme start (beforeQuery text)) text)

/-- A URL without a host, from behind its scheme. -/
def readWithoutHost (scheme : String) (text : List Char) : Url where
  scheme
  username := ""
  password := ""
  host := none
  port := none
  path := match text with
    | '/' :: rest => pathFrom scheme [] (beforeQuery rest)
    | _ => .rootless
      (Percent.encode (fun b => 0x20 ≤ b && b < 0x7F) (String.ofList (beforeQuery text)))
  query := queryOf false text
  fragment := fragmentOf text

/-! ### Whole texts -/

/-- The characters that count: blanks and controls at both ends and line breaks and tabs anywhere
do not. -/
def significant (text : String) : List Char :=
  let isBlank (c : Char) : Bool := c.toNat ≤ 0x20
  let trimmed := ((text.toList.dropWhile isBlank).reverse.dropWhile isBlank).reverse
  trimmed.filter fun c => c ≠ '\t' && c ≠ '\n' && c ≠ '\r'

/-- A URL behind its scheme. -/
def readWithScheme (base : Option Url) (scheme : String) (text : List Char) :
    Except ParseError Url :=
  if scheme = "file" then readFile (base.filter (·.scheme = "file")) text
  else if isSpecial scheme then
    let slashes := (text.takeWhile (isSlash true)).length
    match base with
    | some u =>
      if slashes < 2 ∧ u.scheme = scheme then readRelative u text
      else readAuthority scheme (text.drop slashes)
    | none => readAuthority scheme (text.drop slashes)
  else match text with
    | '/' :: '/' :: rest => readAuthority scheme rest
    | _ => .ok (readWithoutHost scheme text)

/-- The URL that a text writes, resolved against a base if it has no scheme. -/
def read (base : Option Url) (text : String) : Except ParseError Url :=
  let chars := significant text
  match splitScheme chars, base with
  | some (scheme, rest), _ => readWithScheme base scheme rest
  | none, none => .error .relativeWithoutBase
  | none, some u =>
    if chars.head? = some '#' then .ok { u with fragment := fragmentOf chars }
    else if u.isRootless then .error .relativeWithRootlessBase
    else if u.scheme = "file" then readFile u chars
    else readRelative u chars

/-- The URL that a text writes. -/
def parse (text : String) : Except ParseError Url := read none text

/-- The URL that a text names, seen from `base`. -/
def join (base : Url) (text : String) : Except ParseError Url := read (some base) text

/-! ### Origins -/

/-- The written origin: scheme, host and port. A `blob` URL has the origin of the URL inside it, and
what has no origin is written `null`. -/
def origin (u : Url) : String :=
  let own (u : Url) : Option String :=
    match u.host with
    | some host =>
      if (defaultPort? u.scheme).isSome then
        some (u.scheme ++ "://" ++ host.toText ++ portText u.port)
      else none
    | none => none
  let inner : Option String :=
    if u.scheme = "blob" then
      match parse u.path.toText with
      | .ok v => own v
      | .error _ => none
    else own u
  inner.getD "null"

end SignIn.Url
