import LedgerClient.Crypto.Edwards
import LedgerClient.Crypto.Sha2

/-!
# `LedgerClient.Crypto.Ed25519`: signatures

A secret key is 32 bytes. Its digest gives a scalar, whose multiple
of the base point is the public key, and a prefix from which the
nonce of every signature is derived: a signature is a function of the
key and the message, with no randomness.

Verification is exact: the scalar must be below the group order, and
the point that the equation gives must have precisely the encoding in
the signature. No cofactor is cleared, and the key's bytes enter the
digest as they were given.
-/

set_option autoImplicit false

namespace LedgerClient.Crypto.Ed25519

open Edwards (Point order base)

/-- The number modulo the group order that a digest stands for. -/
def scalar (digest : Bytes) : Nat :=
  Bytes.littleEndianValue digest % order

/-- The secret scalar: the first half of the digest with its lowest three bits and its highest
bit cleared and its second highest set. -/
def secretScalar (secret : Bytes) : Nat :=
  let n := Bytes.littleEndianValue ((sha512 secret).take 32)
  n % 1 <<< 254 / 8 * 8 + 1 <<< 254

/-- The bytes of the public key. -/
def publicKey (secret : Bytes) : Bytes :=
  (base.times 256 (secretScalar secret)).encode

/-- The signature of a message: 64 bytes. -/
def sign (secret message : Bytes) : Bytes :=
  let nonce := scalar (sha512 ((sha512 secret).drop 32 ++ message))
  let commitment := (base.times 256 nonce).encode
  let challenge := scalar (sha512 (commitment ++ publicKey secret ++ message))
  commitment ++ Bytes.littleEndian 32 ((nonce + challenge * secretScalar secret) % order)

/-- Whether bytes are those of a point. -/
def isPoint (key : Bytes) : Bool :=
  (Point.decode? key).isSome

/-- Whether a signature of 64 bytes is one of the message under the key. -/
def verify (key message signature : Bytes) : Bool :=
  match Point.decode? key with
  | none => false
  | some point =>
    let commitment := signature.take 32
    let s := Bytes.littleEndianValue (signature.drop 32)
    let challenge := scalar (sha512 (commitment ++ key ++ message))
    signature.length = 64 && s < order &&
      ((base.times 256 s).add (point.neg.times 256 challenge)).encode = commitment

end LedgerClient.Crypto.Ed25519
