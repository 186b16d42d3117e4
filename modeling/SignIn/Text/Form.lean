import SignIn.Text.Percent

/-!
# Forms: `application/x-www-form-urlencoded`

A form is a list of name/value pairs, written `name=value` and joined by `&`. A browser posts
forms like this, and the query string of a URL has the same format.

Writing keeps letters, digits and `*-._`, turns a space into `+` and escapes everything else.
Reading never fails: empty stretches between `&` are no pairs, a stretch without `=` is a name with
an empty value, a `+` is a space, an escape that is none stands for itself, and ill-formed UTF-8
becomes U+FFFD.

## Main definitions

* `Form.encode`, `Form.decode` — the format in both directions
* `Form.lookup` — the value a name has when later pairs win over earlier ones
-/

namespace SignIn

/-- Name/value pairs in the order in which they were written. -/
abbrev Form := List (String × String)

namespace Form

/-- The bytes that a form keeps. -/
def isKept (b : UInt8) : Bool :=
  Percent.isAlphanumeric b || b == 0x2A || b == 0x2D || b == 0x2E || b == 0x5F

/-- How one byte of a name or value is written. -/
def encodeByte (b : UInt8) : List Char :=
  if b = 0x20 then ['+'] else if isKept b then [Char.ofNat b.toNat] else Percent.escapeByte b

/-- A name or value as it is written. -/
def encodeText (s : String) : String := String.ofList ((Utf8.encode s).flatMap encodeByte)

/-- One pair as it is written. -/
def encodePair (p : String × String) : String := encodeText p.1 ++ "=" ++ encodeText p.2

/-- The written form. -/
def encode (form : Form) : String := String.intercalate "&" (form.map encodePair)

/-! ### Reading -/

/-- Splits at every byte `sep`. The current piece and the pieces before it stand in reverse. -/
def splitOnto (sep : UInt8) (piece : Bytes) (pieces : List Bytes) : Bytes → List Bytes
  | [] => (piece.reverse :: pieces).reverse
  | b :: bs =>
    if b = sep then splitOnto sep [] (piece.reverse :: pieces) bs
    else splitOnto sep (b :: piece) pieces bs

/-- Splits at every byte `sep`. -/
def splitBytes (sep : UInt8) (bs : Bytes) : List Bytes := splitOnto sep [] [] bs

theorem splitOnto_eq (sep : UInt8) (piece : Bytes) (pieces : List Bytes) (bs : Bytes) :
    splitOnto sep piece pieces bs = pieces.reverse ++ splitOnto sep piece [] bs := by
  induction bs generalizing piece pieces with
  | nil => simp [splitOnto]
  | cons b bs ih =>
    unfold splitOnto
    split
    · rw [ih, ih [] [_]]
      simp
    · rw [ih]

/-- Without a separator there is one piece. -/
theorem splitBytes_of_not_mem {sep : UInt8} {bs : Bytes} (h : sep ∉ bs) :
    splitBytes sep bs = [bs] := by
  have (acc : Bytes) : splitOnto sep acc [] bs = [acc.reverse ++ bs] := by
    induction bs generalizing acc with
    | nil => simp [splitOnto]
    | cons b bs ih =>
      have hb : b ≠ sep := fun e => h (e ▸ List.mem_cons_self)
      rw [splitOnto, if_neg hb, ih fun m => h (List.mem_cons_of_mem _ m)]
      simp
  exact this []

/-- A name or value as it is read. -/
def decodeText (bs : Bytes) : String :=
  Utf8.decodeLossy (Percent.decode (bs.map fun b => if b = 0x2B then 0x20 else b))

/-- One pair as it is read: the first `=` ends the name. -/
def decodePair (bs : Bytes) : String × String :=
  (decodeText (bs.takeWhile (· ≠ 0x3D)), decodeText ((bs.dropWhile (· ≠ 0x3D)).drop 1))

/-- The pairs that a byte string holds. -/
def decode (bs : Bytes) : Form :=
  ((splitBytes 0x26 bs).filter (fun s => !s.isEmpty)).map decodePair

/-- The pairs of a text. -/
def ofText (s : String) : Form := decode (Utf8.encode s)

/-- The last value that the form gives to `name`. -/
def lookup (form : Form) (name : String) : Option String :=
  (form.reverse.find? (fun p => p.1 == name)).map Prod.snd

end Form

end SignIn
