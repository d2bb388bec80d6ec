import LedgerClient.Crypto.Key
import LedgerClient.Network.Node
import LedgerClient.Retry.Config
import LedgerClient.Wire.Binary

/-!
# `LedgerClient.Wire.Stored`: the binary form of what a client keeps

Nodes, keys, signatures and settings never travel, but they can be
stored, in the same form as messages.
-/

set_option autoImplicit false

namespace LedgerClient

open Wire (Codec)

/-- A node is its account and its address. -/
def Node.codec : Codec Node :=
  (AccountId.codec.pair Codec.text).iso (fun n => (n.accountId, n.address)) fun (a, t) => ⟨a, t⟩

/-- A public key is its bytes. -/
def PublicKey.codec : Codec PublicKey :=
  KeyBytes.codec.iso PublicKey.key PublicKey.mk

/-- A signature may have any length, so its length goes in front. -/
def Signature.codec : Codec Signature :=
  Codec.bytes.iso Signature.bytes Signature.mk

/-- The settings in their order of declaration. -/
def ClientConfig.codec : Codec ClientConfig :=
  (Codec.uint64.pair (Codec.uint64.pair (Codec.uint32.pair (Codec.uint64.pair
    (Codec.uint64.option.pair (Codec.uint64.pair Codec.uint64)))))).iso
    (fun c => (c.minBackoffMs, c.maxBackoffMs, c.maxAttempts, c.requestTimeoutMs, c.deadlineMs,
      c.nodeMinBackoffMs, c.nodeMaxBackoffMs))
    fun (a, b, n, t, d, x, y) => ⟨a, b, n, t, d, x, y⟩

end LedgerClient
