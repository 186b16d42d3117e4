/-!
# Text and its UTF-8 bytes

Everything that arrives from outside is a list of bytes and everything the program reasons about
is text. There are two ways from bytes to text, and which one applies is a decision of each
format:

* the strict way refuses ill-formed bytes; JSON strings are read like this,
* the lossy way puts U+FFFD in place of every ill-formed stretch; form fields, query strings and
  request bodies are read like this, so that no byte string can stop a request.

The lossy way replaces *maximal* ill-formed stretches: a lead byte together with those
continuation bytes that could still have completed it counts as one stretch.

## Main definitions

* `Utf8.encode` — the bytes of a text
* `Utf8.decode?` — the text of well-formed bytes
* `Utf8.decodeLossy` — a text for any bytes
-/

namespace SignIn

/-- A string of bytes. -/
abbrev Bytes := List UInt8

namespace Utf8

/-- The bytes of a text. -/
def encode (s : String) : Bytes := s.toByteArray.toList

/-- The text whose bytes these are, if they are well formed. -/
def decode? (bs : Bytes) : Option String := String.fromUTF8? ⟨bs.toArray⟩

/-! ### One character at a time -/

/-- The values that the byte after a lead byte may take. The first range rules out the overlong
forms, the surrogates and everything beyond U+10FFFF. -/
def secondRange (lead : Nat) : Nat × Nat :=
  if lead = 0xE0 then (0xA0, 0xBF)
  else if lead = 0xED then (0x80, 0x9F)
  else if lead = 0xF0 then (0x90, 0xBF)
  else if lead = 0xF4 then (0x80, 0x8F)
  else (0x80, 0xBF)

/-- How many bytes a character with this lead byte has after it. -/
def tailLength (lead : Nat) : Option Nat :=
  if lead < 0x80 then some 0
  else if 0xC2 ≤ lead ∧ lead ≤ 0xDF then some 1
  else if 0xE0 ≤ lead ∧ lead ≤ 0xEF then some 2
  else if 0xF0 ≤ lead ∧ lead ≤ 0xF4 then some 3
  else none

/-- Takes up to `n` further bytes into the code point `acc`, the next of them from `lo` to `hi`
and all others any continuation byte. The result is the code point, if all bytes were there, and
how many bytes were taken. -/
def takeTail : Nat → Nat → Nat → Nat → Bytes → Option Nat × Nat
  | 0, acc, _, _, _ => (some acc, 0)
  | _ + 1, _, _, _, [] => (none, 0)
  | n + 1, acc, lo, hi, b :: bs =>
    if lo ≤ b.toNat ∧ b.toNat ≤ hi then
      let (c, k) := takeTail n (acc * 64 + b.toNat % 64) 0x80 0xBF bs
      (c, k + 1)
    else (none, 0)

/-- The character that starts with the byte `lead` and goes on in `rest`, if the bytes are well
formed, and how many bytes of `rest` belong to it or to its ill-formed stretch. -/
def headChar (lead : UInt8) (rest : Bytes) : Option Char × Nat :=
  match tailLength lead.toNat with
  | none => (none, 0)
  | some n =>
    let start := if n = 0 then lead.toNat else lead.toNat % (1 <<< (6 - n))
    let (lo, hi) := secondRange lead.toNat
    let (code, taken) := takeTail n start lo hi rest
    (code.map Char.ofNat, taken)

/-- The characters of a byte string, `none` for each ill-formed stretch, behind those in `acc`,
which stand in reverse. -/
def charsOnto (acc : List (Option Char)) : Bytes → List (Option Char)
  | [] => acc.reverse
  | lead :: rest =>
    let (c, taken) := headChar lead rest
    charsOnto (c :: acc) (rest.drop taken)
termination_by bs => bs.length
decreasing_by simp only [List.length_drop, List.length_cons]; omega

/-- The characters of a byte string, `none` for each ill-formed stretch. -/
def chars (bs : Bytes) : List (Option Char) := charsOnto [] bs

theorem charsOnto_eq (acc : List (Option Char)) (bs : Bytes) :
    charsOnto acc bs = acc.reverse ++ chars bs := by
  rw [chars]
  induction h : bs.length using Nat.strongRecOn generalizing acc bs with
  | ind n ih =>
    cases bs with
    | nil => simp [charsOnto]
    | cons lead rest =>
      have hlen (k : Nat) : (rest.drop k).length < n := by simp at h ⊢; omega
      rw [charsOnto.eq_2 acc, charsOnto.eq_2 []]
      simp only
      rw [ih _ (hlen _) _ _ rfl, ih _ (hlen _) [_] _ rfl]
      simp

@[simp]
theorem chars_nil : chars [] = [] := by simp [chars, charsOnto]

/-- The first byte begins a character or an ill-formed stretch, and the rest is read behind it. -/
theorem chars_cons (lead : UInt8) (rest : Bytes) :
    chars (lead :: rest) =
      (headChar lead rest).1 :: chars (rest.drop (headChar lead rest).2) := by
  rw [chars, charsOnto.eq_2]
  simp only
  rw [charsOnto_eq]
  simp

/-- The text of a byte string, with U+FFFD for each ill-formed stretch. -/
def decodeLossy (bs : Bytes) : String :=
  String.ofList ((chars bs).map (·.getD '\uFFFD'))

end Utf8

end SignIn
