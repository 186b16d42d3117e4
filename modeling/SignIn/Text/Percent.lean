import SignIn.Text.Utf8

/-!
# Percent escapes

A byte that a place in a URL must not hold as it is stands there as `%XX`. Which bytes are escaped
depends on the place, so every encoder takes the set of bytes to keep or to escape as a predicate;
reading back is the same everywhere.

Reading is permissive: a `%` that two hexadecimal digits do not follow stands for itself.

## Main definitions

* `Percent.escapeByte` — `%XX`, upper case
* `Percent.encodeBytes`, `Percent.encode` — all bytes but the kept ones escaped
* `Percent.decode` — the bytes of an escaped byte string
* `Percent.component` — a text as one component of a URI, in which only letters, digits and
  `-._~` stand for themselves
-/

namespace SignIn.Percent

/-- The digit of value `n`, upper case. -/
def hexDigit (n : Nat) : Char := if n < 10 then Char.ofNat (0x30 + n) else Char.ofNat (0x37 + n)

/-- The value of a hexadecimal digit of either case. -/
def hexValue? (b : UInt8) : Option Nat :=
  let n := b.toNat
  if 0x30 ≤ n ∧ n ≤ 0x39 then some (n - 0x30)
  else if 0x41 ≤ n ∧ n ≤ 0x46 then some (n - 0x37)
  else if 0x61 ≤ n ∧ n ≤ 0x66 then some (n - 0x57)
  else none

/-- The escape of one byte. -/
def escapeByte (b : UInt8) : List Char := ['%', hexDigit (b.toNat / 16), hexDigit (b.toNat % 16)]

/-- Every byte that `keep` does not hold of is escaped; a kept byte is an ASCII character. -/
def encodeBytes (keep : UInt8 → Bool) (bs : Bytes) : List Char :=
  bs.flatMap fun b => if keep b then [Char.ofNat b.toNat] else escapeByte b

/-- The text with all bytes of its characters escaped but the kept ones. -/
def encode (keep : UInt8 → Bool) (s : String) : String :=
  String.ofList (encodeBytes keep (Utf8.encode s))

/-- The bytes that an escaped byte string stands for, behind those in `acc`, which stand in
reverse. -/
def decodeOnto (acc : Bytes) : Bytes → Bytes
  | [] => acc.reverse
  | 0x25 :: hi :: lo :: rest =>
    match hexValue? hi, hexValue? lo with
    | some h, some l => decodeOnto (UInt8.ofNat (16 * h + l) :: acc) rest
    | _, _ => decodeOnto (0x25 :: acc) (hi :: lo :: rest)
  | b :: rest => decodeOnto (b :: acc) rest

/-- The bytes that an escaped byte string stands for. -/
def decode (bs : Bytes) : Bytes := decodeOnto [] bs

theorem decodeOnto_eq (acc bs : Bytes) : decodeOnto acc bs = acc.reverse ++ decode bs := by
  rw [decode]
  induction h : bs.length using Nat.strongRecOn generalizing acc bs with
  | ind n ih =>
    have step (a : UInt8) (tail : Bytes) (hl : tail.length < n) :
        decodeOnto (a :: acc) tail = acc.reverse ++ decodeOnto [a] tail := by
      rw [ih _ hl _ _ rfl, ih _ hl [a] _ rfl]
      simp
    unfold decodeOnto
    split
    · simp
    · split <;> exact step _ _ (by simp only [List.length_cons] at *; omega)
    · exact step _ _ (by simp only [List.length_cons] at h; omega)

@[simp]
theorem decode_nil : decode [] = [] := rfl

/-- An escape stands for its byte. -/
theorem decode_escape {hi lo : UInt8} {h l : Nat} (hh : hexValue? hi = some h)
    (hl : hexValue? lo = some l) (rest : Bytes) :
    decode (0x25 :: hi :: lo :: rest) = UInt8.ofNat (16 * h + l) :: decode rest := by
  rw [decode, decodeOnto, hh, hl]
  simp only
  rw [decodeOnto_eq]
  rfl

/-- Any byte but `%` stands for itself. -/
theorem decode_cons {b : UInt8} (h : b ≠ 0x25) (rest : Bytes) :
    decode (b :: rest) = b :: decode rest := by
  rw [decode, decodeOnto]
  · rw [decodeOnto_eq]
    rfl
  · intros
    simp_all

/-- An ASCII letter or digit. -/
def isAlphanumeric (b : UInt8) : Bool :=
  (0x30 ≤ b && b ≤ 0x39) || (0x41 ≤ b && b ≤ 0x5A) || (0x61 ≤ b && b ≤ 0x7A)

/-- The bytes that never need an escape: letters, digits and `-._~`. -/
def isUnreserved (b : UInt8) : Bool :=
  isAlphanumeric b || b == 0x2D || b == 0x2E || b == 0x5F || b == 0x7E

/-- A text as one component of a URI. -/
def component (s : String) : String := encode isUnreserved s

end SignIn.Percent
