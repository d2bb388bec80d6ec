import LedgerClient.Error
import LedgerClient.Wire.Codec

/-!
# `LedgerClient.Wire.Binary`: the binary form of every message

Each message type gets its codec from those of its parts, in the
order of its fields; the alternatives of a message are numbered in
the order in which they are declared. A transaction's bytes are what
is signed, so this form must be a function of the value alone and no
two values may share it.
-/

set_option autoImplicit false

namespace LedgerClient

open Wire (Codec)

/-- The codec of a three-part number. -/
def tripleCodec : Codec (UInt64 × UInt64 × UInt64) :=
  Codec.uint64.pair (Codec.uint64.pair Codec.uint64)

/-- An account is its three numbers. -/
def AccountId.codec : Codec AccountId :=
  tripleCodec.iso (fun id => (id.shard, id.realm, id.num)) fun (s, r, n) => ⟨s, r, n⟩

/-- A token is its three numbers, too. -/
def TokenId.codec : Codec TokenId :=
  tripleCodec.iso (fun id => (id.shard, id.realm, id.num)) fun (s, r, n) => ⟨s, r, n⟩

/-- A unique token is its token and then its serial number. -/
def NftId.codec : Codec NftId :=
  (TokenId.codec.pair Codec.int64).iso (fun id => (id.tokenId, id.serial)) fun (t, n) => ⟨t, n⟩

/-- An instant is its seconds and then its nanoseconds. -/
def Timestamp.codec : Codec Timestamp :=
  (Codec.int64.pair Codec.int32).iso (fun t => (t.seconds, t.nanos)) fun (s, n) => ⟨s, n⟩

/-- A transaction is named by the account that pays and then the start. -/
def TransactionId.codec : Codec TransactionId :=
  (AccountId.codec.pair Timestamp.codec).iso
    (fun id => (id.accountId, id.validStart)) fun (a, t) => ⟨a, t⟩

/-- A status is its number. -/
def Status.codec : Codec Status :=
  Codec.uint32.refine (fun s => UInt32.ofNat s.number) fun n => Status.ofNumber? n.toNat

/-- A public key is its thirty-two bytes, with no length in front. -/
def KeyBytes.codec : Codec KeyBytes where
  encode k := k.bytes
  decode input :=
    if h : 32 ≤ input.length then
      some (⟨input.take 32, by rw [List.length_take]; omega⟩, input.drop 32)
    else none

namespace Wire

/-- The same two numbers, which nobody has checked. -/
def Timestamp.codec : Codec Wire.Timestamp :=
  (Codec.int64.pair Codec.int32).iso (fun t => (t.seconds, t.nanos)) fun (s, n) => ⟨s, n⟩

/-- The account, and the start as it was sent. -/
def TransactionId.codec : Codec Wire.TransactionId :=
  (AccountId.codec.pair Wire.Timestamp.codec).iso
    (fun id => (id.accountId, id.validStart)) fun (a, t) => ⟨a, t⟩

/-- The account, the amount, and whether it was approved. -/
def AccountAmount.codec : Codec AccountAmount :=
  (AccountId.codec.pair (Codec.int64.pair Codec.bool)).iso
    (fun x => (x.accountId, x.amount, x.isApproval)) fun (a, n, b) => ⟨a, n, b⟩

/-- The sender, the receiver, the serial number, and whether it was approved. -/
def NftTransfer.codec : Codec NftTransfer :=
  (AccountId.codec.pair (AccountId.codec.pair (Codec.int64.pair Codec.bool))).iso
    (fun x => (x.senderAccountId, x.receiverAccountId, x.serialNumber, x.isApproval))
    fun (a, r, n, b) => ⟨a, r, n, b⟩

/-- The token, its amounts, its moves, and the decimals it should have. -/
def TokenTransferList.codec : Codec TokenTransferList :=
  (TokenId.codec.pair (AccountAmount.codec.list.pair
    (NftTransfer.codec.list.pair Codec.uint32.option))).iso
    (fun x => (x.token, x.transfers, x.nftTransfers, x.expectedDecimals))
    fun (t, xs, ns, d) => ⟨t, xs, ns, d⟩

/-- The amounts, and the lists of the tokens. -/
def CryptoTransfer.codec : Codec CryptoTransfer :=
  (AccountAmount.codec.list.pair TokenTransferList.codec.list).iso
    (fun x => (x.transfers, x.tokenTransfers)) fun (xs, ts) => ⟨xs, ts⟩

/-- There is one operation, with the number zero. -/
def Operation.codec : Codec Operation :=
  (Codec.uint32.pair CryptoTransfer.codec).refine
    (fun | .cryptoTransfer body => (0, body))
    fun (number, body) => if number = 0 then some (.cryptoTransfer body) else none

/-- The fields of a body as they are declared. -/
def TransactionBody.codec : Codec TransactionBody :=
  (Wire.TransactionId.codec.pair (AccountId.codec.pair (Codec.uint64.pair
    (Codec.int64.pair (Codec.text.pair Operation.codec))))).iso
    (fun b => (b.transactionId, b.nodeAccountId, b.transactionFee, b.validDurationSecs, b.memo,
      b.operation))
    fun (id, node, fee, secs, memo, op) => ⟨id, node, fee, secs, memo, op⟩

/-- The fields of a scheduled body as they are declared. -/
def ScheduledBody.codec : Codec ScheduledBody :=
  (Codec.uint64.pair (Codec.text.pair Operation.codec)).iso
    (fun b => (b.transactionFee, b.memo, b.operation)) fun (fee, memo, op) => ⟨fee, memo, op⟩

/-- The key, and the signature with its length in front. -/
def SignaturePair.codec : Codec SignaturePair :=
  (KeyBytes.codec.pair Codec.bytes).iso (fun p => (p.publicKey, p.signature))
    fun (k, s) => ⟨k, s⟩

/-- The bytes that were signed, and the signatures. -/
def SignedTransaction.codec : Codec SignedTransaction :=
  (Codec.bytes.pair SignaturePair.codec.list).iso (fun t => (t.bodyBytes, t.sigMap))
    fun (b, ps) => ⟨b, ps⟩

/-- A receipt is asked for with the number zero, and a balance with one. -/
def Query.codec : Codec Query :=
  (Codec.alternatives Wire.TransactionId.codec AccountId.codec).iso
    (fun
      | .transactionReceipt id => .inl id
      | .accountBalance id => .inr id)
    fun
      | .inl id => .transactionReceipt id
      | .inr id => .accountBalance id

/-- A transaction is submitted with the number zero, and a query sent with one. -/
def Request.codec : Codec Request :=
  (Codec.alternatives SignedTransaction.codec Query.codec).iso
    (fun
      | .submitTransaction t => .inl t
      | .query q => .inr q)
    fun
      | .inl t => .submitTransaction t
      | .inr q => .query q

/-- A receipt is its status. -/
def Receipt.codec : Codec Receipt :=
  Status.codec.iso Receipt.status Receipt.mk

/-- Nothing has the number zero, a receipt one, and a balance two. -/
def Payload.codec : Codec Payload :=
  (Codec.threeAlternatives Codec.unit Receipt.codec Codec.uint64).iso
    (fun
      | .none => .inl ()
      | .receipt r => .inr (.inl r)
      | .accountBalance n => .inr (.inr n))
    fun
      | .inl () => .none
      | .inr (.inl r) => .receipt r
      | .inr (.inr n) => .accountBalance n

/-- The verdict, and the payload. -/
def Response.codec : Codec Response :=
  (Status.codec.pair Payload.codec).iso (fun r => (r.precheck, r.payload)) fun (s, p) => ⟨s, p⟩

/-- The message in front of a byte string, or the error that there is none. -/
def Codec.decoded {α : Type} (c : Codec α) (input : Bytes) : Except Error α :=
  match c.decode? input with
  | some v => .ok v
  | none => .error (.codec .undecodable)

end Wire

end LedgerClient
