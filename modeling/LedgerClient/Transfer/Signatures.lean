import LedgerClient.Crypto.Key

/-!
# `LedgerClient.Transfer.Signatures`: who has signed

The signatures over one body are kept in the order of their public
keys' bytes, one for each key: signing again replaces the earlier
signature. The order in which keys signed is therefore not part of
the result.
-/

set_option autoImplicit false

namespace LedgerClient

/-- Signatures by public key, in the order of the keys' bytes. -/
structure SignatureMap where
  pairs : List (PublicKey × Signature) := []
deriving DecidableEq

namespace SignatureMap

/-- Stores a signature at its place in the order, in the stead of an earlier one. -/
def insertPair (key : PublicKey) (signature : Signature) :
    List (PublicKey × Signature) → List (PublicKey × Signature)
  | [] => [(key, signature)]
  | (k, s) :: rest =>
    if k = key then (key, signature) :: rest
    else if key.bytes < k.bytes then (key, signature) :: (k, s) :: rest
    else (k, s) :: insertPair key signature rest

/-- Stores a signature. -/
def insert (map : SignatureMap) (key : PublicKey) (signature : Signature) : SignatureMap :=
  ⟨insertPair key signature map.pairs⟩

/-- The signature of a key. -/
def get? (map : SignatureMap) (key : PublicKey) : Option Signature :=
  (map.pairs.find? fun pair => pair.1 = key).map (·.2)

/-- Whether a key has signed. -/
def contains (map : SignatureMap) (key : PublicKey) : Bool :=
  (map.get? key).isSome

/-- The keys that have signed, in order. -/
def keys (map : SignatureMap) : List PublicKey :=
  map.pairs.map (·.1)

/-- The signatures as they travel. -/
def toWire (map : SignatureMap) : List Wire.SignaturePair :=
  map.pairs.map fun (key, signature) => ⟨key.key, signature.bytes⟩

end SignatureMap

end LedgerClient
