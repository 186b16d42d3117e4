import SignIn.Crypto.Sha256

/-!
# RSA signatures

A signature over a message is a number; raised to the public exponent it gives the hash of the
message, padded to the length of the modulus as PKCS #1, version 1.5, prescribes. The hash function
is SHA-256.

## Main definitions

* `Rsa.Key`, `Rsa.Key.verify`
-/

namespace SignIn.Rsa

/-- A public key. -/
structure Key where
  modulus : Nat
  exponent : Nat
  deriving DecidableEq, Repr

/-- The number that bytes stand for, the most significant one first. -/
def toNumber (bytes : Bytes) : Nat := bytes.foldl (fun n b => n * 256 + b.toNat) 0

/-- A power modulo `modulus`, by repeated squaring. -/
def power (base modulus exponent : Nat) : Nat :=
  if exponent = 0 then 1 % modulus
  else
    let root := power base modulus (exponent / 2)
    let square := root * root % modulus
    if exponent % 2 = 0 then square else square * base % modulus
  termination_by exponent
  decreasing_by omega

/-- What stands in front of a hash: that it is one of SHA-256, in the notation of ASN.1. -/
def hashMark : Bytes :=
  [0x30, 0x31, 0x30, 0x0d, 0x06, 0x09, 0x60, 0x86, 0x48, 0x01, 0x65, 0x03, 0x04, 0x02, 0x01, 0x05,
    0x00, 0x04, 0x20]

/-- The hash of a message, padded to `length` bytes. -/
def padded (length : Nat) (message : Bytes) : Bytes :=
  let marked := hashMark ++ Sha256.hash message
  [0x00, 0x01] ++ List.replicate (length - marked.length - 3) 0xFF ++ [0x00] ++ marked

namespace Key

/-- How many bytes the modulus has. -/
def size (key : Key) : Nat := (Nat.log2 key.modulus + 8) / 8

/-- How many bytes the modulus must have so that there is room for the padding. -/
def smallest : Nat := 62

/-- Whether a signature belongs to a message. -/
def verify (key : Key) (message signature : Bytes) : Bool :=
  smallest ≤ key.size && signature.length == key.size && toNumber signature < key.modulus &&
    power (toNumber signature) key.modulus key.exponent == toNumber (padded key.size message)

end Key

end SignIn.Rsa
