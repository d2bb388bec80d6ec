import LedgerClient.Client
import LedgerClient.Transfer.Draft
import LedgerClient.Transfer.Signatures

/-!
# `LedgerClient.Transfer.Frozen`: a transfer that can only be signed

Freezing fixes the name and the nodes, and with them the bytes of one
body for each node. Nothing changes them afterwards, so a signature
stays valid. What can still be added is signatures: each signer signs
every body, and each body has its own map of signatures.
-/

set_option autoImplicit false

namespace LedgerClient

/-- The body for one node: its bytes, and the signatures over them. -/
structure FrozenBody where
  node : AccountId
  bytes : Bytes
  signatures : SignatureMap
deriving DecidableEq

/-- A transfer with its name and its bodies fixed. -/
structure Frozen where
  draft : Draft
  transactionId : TransactionId
  bodies : List FrozenBody
deriving DecidableEq

namespace Draft

/-- Fixes the bodies for a name and some nodes. -/
def freezeAs (d : Draft) (id : TransactionId) (nodes : List AccountId) : Frozen where
  draft := d
  transactionId := id
  bodies := nodes.map fun node =>
    ⟨node, Wire.TransactionBody.codec.encode (d.bodyFor id node), {}⟩

/-- Freezes a draft that has its name and its nodes. -/
def freeze (d : Draft) : Except Error Frozen :=
  match d.transactionId, d.nodeIds with
  | none, _ => .error (.illegalState .freezeWithoutId)
  | some _, none => .error (.illegalState .freezeWithoutNodes)
  | some id, some nodes => .ok (d.freezeAs id nodes)

/-- Freezes a draft for a client. The nodes default to the whole network from the next pick
on, which moves the network's cursor, and the name to a fresh one that the operator pays for
and that starts at `start`. -/
def freezeWith (d : Draft) (client : Client) (now : Time) (start : Timestamp) :
    Except Error Frozen × Client :=
  let (d, client) := match d.nodeIds with
    | some _ => (d, client)
    | none =>
      let (first, network) := client.network.selectNode now
      ({ d with nodeIds := some (network.orderedFrom first.accountId) },
        { client with network := network })
  match d.transactionId, client.operator with
  | some _, _ => (d.freeze, client)
  | none, some op => ((d.setTransactionId ⟨op.accountId, start⟩).freeze, client)
  | none, none => (.error (.illegalState .noOperatorForId), client)

end Draft

namespace Frozen

/-- The nodes that the transaction may go to. -/
def nodeIds (f : Frozen) : List AccountId := f.bodies.map FrozenBody.node

/-- What is fixed for a node. -/
def bodyAt? (f : Frozen) (node : AccountId) : Option FrozenBody :=
  f.bodies.find? fun b => b.node = node

/-- Adds a signature to every body; `signer` makes it from the body's bytes. -/
def signWith (f : Frozen) (key : PublicKey) (signer : Bytes → Signature) : Frozen :=
  { f with bodies := f.bodies.map fun b =>
      { b with signatures := b.signatures.insert key (signer b.bytes) } }

/-- Adds a key's signature to every body. -/
def sign (f : Frozen) (key : PrivateKey) : Frozen :=
  f.signWith key.publicKey key.sign

/-- Whether a key has signed every body. -/
def contains (f : Frozen) (key : PublicKey) : Bool :=
  f.bodies.all fun b => b.signatures.contains key

/-- The keys that have signed, in order. -/
def signers (f : Frozen) : List PublicKey :=
  match f.bodies with
  | [] => []
  | b :: _ => b.signatures.keys

/-- The body that a node sees. -/
def body (f : Frozen) (node : AccountId) : Wire.TransactionBody :=
  f.draft.bodyFor f.transactionId node

/-- The signed transaction as it is sent to a node. -/
def signed (f : Frozen) (node : AccountId) : Except Error Wire.SignedTransaction :=
  match f.bodyAt? node with
  | some b => .ok ⟨b.bytes, b.signatures.toWire⟩
  | none => .error (.invalidArgument (.unfrozenNode node))

/-- The digest by which the ledger knows the signed transaction that is sent to a node. -/
def hash (f : Frozen) (node : AccountId) : Except Error Bytes :=
  (f.signed node).map fun signed => Crypto.sha384 (Wire.SignedTransaction.codec.encode signed)

/-- The transaction with the operator's signature, unless the operator has signed already. -/
def signedByOperator (f : Frozen) (client : Client) : Frozen :=
  match client.operator with
  | none => f
  | some op => if f.contains op.privateKey.publicKey then f else f.sign op.privateKey

end Frozen

end LedgerClient
