import SignIn.Text.Utf8

/-!
# SHA-256 and HMAC

The hash function of FIPS 180-4 and the message authentication code that RFC 2104 builds on it. A
message is padded to whole blocks of 64 bytes; each block is spread out to 64 words, which are mixed
into a state of eight words one after the other.

## Main definitions

* `Sha256.hash` — 32 bytes for a message
* `Sha256.hmac` — 32 bytes for a message and a key
-/

namespace SignIn.Sha256

/-- The fractional parts of the cube roots of the first 64 primes. -/
def roundConstants : List UInt32 := [
  0x428a2f98, 0x71374491, 0xb5c0fbcf, 0xe9b5dba5, 0x3956c25b, 0x59f111f1, 0x923f82a4, 0xab1c5ed5,
  0xd807aa98, 0x12835b01, 0x243185be, 0x550c7dc3, 0x72be5d74, 0x80deb1fe, 0x9bdc06a7, 0xc19bf174,
  0xe49b69c1, 0xefbe4786, 0x0fc19dc6, 0x240ca1cc, 0x2de92c6f, 0x4a7484aa, 0x5cb0a9dc, 0x76f988da,
  0x983e5152, 0xa831c66d, 0xb00327c8, 0xbf597fc7, 0xc6e00bf3, 0xd5a79147, 0x06ca6351, 0x14292967,
  0x27b70a85, 0x2e1b2138, 0x4d2c6dfc, 0x53380d13, 0x650a7354, 0x766a0abb, 0x81c2c92e, 0x92722c85,
  0xa2bfe8a1, 0xa81a664b, 0xc24b8b70, 0xc76c51a3, 0xd192e819, 0xd6990624, 0xf40e3585, 0x106aa070,
  0x19a4c116, 0x1e376c08, 0x2748774c, 0x34b0bcb5, 0x391c0cb3, 0x4ed8aa4a, 0x5b9cca4f, 0x682e6ff3,
  0x748f82ee, 0x78a5636f, 0x84c87814, 0x8cc70208, 0x90befffa, 0xa4506ceb, 0xbef9a3f7, 0xc67178f2]

/-- The eight words of a state. -/
structure State where
  a : UInt32
  b : UInt32
  c : UInt32
  d : UInt32
  e : UInt32
  f : UInt32
  g : UInt32
  h : UInt32
  deriving DecidableEq, Repr

/-- The fractional parts of the square roots of the first eight primes. -/
def State.start : State :=
  ⟨0x6a09e667, 0xbb67ae85, 0x3c6ef372, 0xa54ff53a, 0x510e527f, 0x9b05688c, 0x1f83d9ab, 0x5be0cd19⟩

/-- The sum of two states, word by word. -/
def State.add (s t : State) : State :=
  ⟨s.a + t.a, s.b + t.b, s.c + t.c, s.d + t.d, s.e + t.e, s.f + t.f, s.g + t.g, s.h + t.h⟩

/-- A word turned right by `n` bits, for `0 < n < 32`. -/
def rotate (w : UInt32) (n : UInt32) : UInt32 := (w >>> n) ||| (w <<< (32 - n))

/-- The word that follows sixteen words, the latest of which comes first. -/
def nextWord (latest : List UInt32) : UInt32 :=
  let w (back : Nat) : UInt32 := latest.getD (back - 1) 0
  let s0 := rotate (w 15) 7 ^^^ rotate (w 15) 18 ^^^ (w 15 >>> 3)
  let s1 := rotate (w 2) 17 ^^^ rotate (w 2) 19 ^^^ (w 2 >>> 10)
  w 16 + s0 + w 7 + s1

/-- `n` more words behind the words so far, the latest of which comes first. -/
def extend : (n : Nat) → List UInt32 → List UInt32
  | 0, words => words
  | n + 1, words => extend n (nextWord words :: words)

/-- One round. -/
def round (s : State) (k w : UInt32) : State :=
  let s1 := rotate s.e 6 ^^^ rotate s.e 11 ^^^ rotate s.e 25
  let choice := (s.e &&& s.f) ^^^ (~~~s.e &&& s.g)
  let t1 := s.h + s1 + choice + k + w
  let s0 := rotate s.a 2 ^^^ rotate s.a 13 ^^^ rotate s.a 22
  let majority := (s.a &&& s.b) ^^^ (s.a &&& s.c) ^^^ (s.b &&& s.c)
  ⟨t1 + (s0 + majority), s.a, s.b, s.c, s.d + t1, s.e, s.f, s.g⟩

/-- Big-endian words of four bytes each. -/
def wordsOfBytes : Bytes → List UInt32
  | a :: b :: c :: d :: rest =>
    (a.toUInt32 <<< 24 ||| b.toUInt32 <<< 16 ||| c.toUInt32 <<< 8 ||| d.toUInt32) ::
      wordsOfBytes rest
  | _ => []

/-- The four bytes of a word, big-endian. -/
def bytesOfWord (w : UInt32) : Bytes :=
  [(w >>> 24).toUInt8, (w >>> 16).toUInt8, (w >>> 8).toUInt8, w.toUInt8]

/-- Mixes a block into a state. -/
def compress (s : State) (block : Bytes) : State :=
  let words := (extend 48 (wordsOfBytes block).reverse).reverse
  s.add ((roundConstants.zip words).foldl (fun s kw => round s kw.1 kw.2) s)

/-- The length of a message in bits, as eight bytes. -/
def lengthBytes (length : Nat) : Bytes :=
  [56, 48, 40, 32, 24, 16, 8, 0].map fun shift => UInt8.ofNat ((8 * length) >>> shift)

/-- A message, a single bit, as many zeros as needed, and the length: whole blocks. -/
def pad (message : Bytes) : Bytes :=
  let zeros := (119 - message.length % 64) % 64
  message ++ 0x80 :: List.replicate zeros 0 ++ lengthBytes message.length

/-- Mixes blocks into a state. -/
def compressAll : (blocks : Nat) → State → Bytes → State
  | 0, s, _ => s
  | blocks + 1, s, bytes => compressAll blocks (compress s (bytes.take 64)) (bytes.drop 64)

/-- The bytes of a state. -/
def State.bytes (s : State) : Bytes := [s.a, s.b, s.c, s.d, s.e, s.f, s.g, s.h].flatMap bytesOfWord

/-- The hash of a message. -/
def hash (message : Bytes) : Bytes :=
  let padded := pad message
  (compressAll (padded.length / 64) State.start padded).bytes

/-- A key of exactly one block: a longer one is hashed, a shorter one is filled up with zeros. -/
def keyBlock (key : Bytes) : Bytes :=
  let key := if 64 < key.length then hash key else key
  key ++ List.replicate (64 - key.length) 0

/-- The authentication code of a message under a key. -/
def hmac (key message : Bytes) : Bytes :=
  let block := keyBlock key
  hash (block.map (· ^^^ 0x5C) ++ hash (block.map (· ^^^ 0x36) ++ message))

end SignIn.Sha256
