import LedgerClient.Crypto.Key
import LedgerClient.Json.Form
import LedgerClient.Ledger.TimestampReader
import LedgerClient.Network.Node

/-!
# `LedgerClient.Wire.Form`: the JSON form of every message

A structure is a record of its fields, byte strings are lists of
numbers, and an alternative is written with its name. Nothing but the
types is checked: what comes out is a message, which need not make
sense.
-/

set_option autoImplicit false

namespace LedgerClient

open Json (FieldCheck readRecord)

/-- The fields of a three-part number. -/
def tripleFields (shard realm num : UInt64) : Json :=
  .record [("shard", toJson shard), ("realm", toJson realm), ("num", toJson num)]

/-- The three parts of a three-part number. -/
def readTriple (j : Json) : Except Mismatch (UInt64 × UInt64 × UInt64) := do
  let fields ← readRecord [.expect UInt64 "shard", .expect UInt64 "realm",
    .expect UInt64 "num"] 0 j
  return (← fields.get "shard", ← fields.get "realm", ← fields.get "num")

instance : JsonForm AccountId where
  toJson id := tripleFields id.shard id.realm id.num
  ofJson j := (readTriple j).map fun (shard, realm, num) => ⟨shard, realm, num⟩

instance : JsonForm TokenId where
  toJson id := tripleFields id.shard id.realm id.num
  ofJson j := (readTriple j).map fun (shard, realm, num) => ⟨shard, realm, num⟩

instance : JsonForm NftId where
  toJson id := .record [("token_id", toJson id.tokenId), ("serial", toJson id.serial)]
  ofJson j := do
    let fields ← readRecord [.expect TokenId "token_id", .expect Int64 "serial"] 0 j
    return ⟨← fields.get "token_id", ← fields.get "serial"⟩

instance : JsonForm Wire.Timestamp where
  toJson t := .record [("seconds", toJson t.seconds), ("nanos", toJson t.nanos)]
  ofJson j := do
    let fields ← readRecord [.expect Int64 "seconds", .expect Int32 "nanos"] 0 j
    return ⟨← fields.get "seconds", ← fields.get "nanos"⟩

instance : JsonForm Timestamp where
  toJson t := toJson t.toWire
  ofJson j := (ofJson j : Except Mismatch Wire.Timestamp).map fun w => ⟨w.seconds, w.nanos⟩

instance : JsonForm Wire.TransactionId where
  toJson id := .record [("account_id", toJson id.accountId), ("valid_start", toJson id.validStart)]
  ofJson j := do
    let fields ← readRecord [.expect AccountId "account_id",
      .expect Wire.Timestamp "valid_start"] 0 j
    return ⟨← fields.get "account_id", ← fields.get "valid_start"⟩

instance : JsonForm TransactionId where
  toJson id := toJson id.toWire
  ofJson j := (ofJson j : Except Mismatch Wire.TransactionId).map fun w =>
    ⟨w.accountId, ⟨w.validStart.seconds, w.validStart.nanos⟩⟩

instance : JsonForm Status where
  toJson s := .text s.name
  ofJson j := do
    let (name, content) ← Json.variant? j
    match Status.ofName? name with
    | none => throw (.unknownVariant name)
    | some status => do
      Json.carriesNothing content
      return status

instance : JsonForm KeyBytes where
  toJson k := toJson k.bytes
  ofJson j := do
    let bytes : Bytes ← ofJson j
    match KeyBytes.ofBytes? bytes with
    | some key => return key
    | none => throw .wrongLength

instance : JsonForm PublicKey where
  toJson k := .record [("bytes", toJson k.key)]
  ofJson j := do
    let fields ← readRecord [.expect KeyBytes "bytes"] 0 j
    return ⟨← fields.get "bytes"⟩

instance : JsonForm Signature where
  toJson s := .record [("bytes", toJson s.bytes)]
  ofJson j := do
    let fields ← readRecord [.expect Bytes "bytes"] 0 j
    return ⟨← fields.get "bytes"⟩

instance : JsonForm Node where
  toJson n := .record [("account_id", toJson n.accountId), ("address", toJson n.address)]
  ofJson j := do
    let fields ← readRecord [.expect AccountId "account_id", .expect String "address"] 0 j
    return ⟨← fields.get "account_id", ← fields.get "address"⟩

namespace Wire

instance : JsonForm AccountAmount where
  toJson x := .record [("account_id", toJson x.accountId), ("amount", toJson x.amount),
    ("is_approval", toJson x.isApproval)]
  ofJson j := do
    let fields ← readRecord [.expect AccountId "account_id", .expect Int64 "amount",
      .expect Bool "is_approval"] 0 j
    return ⟨← fields.get "account_id", ← fields.get "amount", ← fields.get "is_approval"⟩

instance : JsonForm NftTransfer where
  toJson x := .record [("sender_account_id", toJson x.senderAccountId),
    ("receiver_account_id", toJson x.receiverAccountId),
    ("serial_number", toJson x.serialNumber), ("is_approval", toJson x.isApproval)]
  ofJson j := do
    let fields ← readRecord [.expect AccountId "sender_account_id",
      .expect AccountId "receiver_account_id", .expect Int64 "serial_number",
      .expect Bool "is_approval"] 0 j
    return ⟨← fields.get "sender_account_id", ← fields.get "receiver_account_id",
      ← fields.get "serial_number", ← fields.get "is_approval"⟩

instance : JsonForm TokenTransferList where
  toJson x := .record [("token", toJson x.token), ("transfers", toJson x.transfers),
    ("nft_transfers", toJson x.nftTransfers), ("expected_decimals", toJson x.expectedDecimals)]
  ofJson j := do
    let fields ← readRecord [.expect TokenId "token", .expect (List AccountAmount) "transfers",
      .expect (List NftTransfer) "nft_transfers",
      .expect (Option UInt32) "expected_decimals"] 0 j
    return ⟨← fields.get "token", ← fields.get "transfers", ← fields.get "nft_transfers",
      ← fields.get "expected_decimals"⟩

instance : JsonForm CryptoTransfer where
  toJson x := .record [("transfers", toJson x.transfers),
    ("token_transfers", toJson x.tokenTransfers)]
  ofJson j := do
    let fields ← readRecord [.expect (List AccountAmount) "transfers",
      .expect (List TokenTransferList) "token_transfers"] 0 j
    return ⟨← fields.get "transfers", ← fields.get "token_transfers"⟩

instance : JsonForm Operation where
  toJson | .cryptoTransfer body => .record [("CryptoTransfer", toJson body)]
  ofJson j := do
    match ← Json.variant? j with
    | ("CryptoTransfer", content) => return .cryptoTransfer (← Json.carried ofJson content)
    | (name, _) => throw (.unknownVariant name)

instance : JsonForm TransactionBody where
  toJson b := .record [("transaction_id", toJson b.transactionId),
    ("node_account_id", toJson b.nodeAccountId), ("transaction_fee", toJson b.transactionFee),
    ("transaction_valid_duration_secs", toJson b.validDurationSecs), ("memo", toJson b.memo),
    ("operation", toJson b.operation)]
  ofJson j := do
    let fields ← readRecord [.expect Wire.TransactionId "transaction_id",
      .expect AccountId "node_account_id", .expect UInt64 "transaction_fee",
      .expect Int64 "transaction_valid_duration_secs", .expect String "memo",
      .expect Operation "operation"] 0 j
    return ⟨← fields.get "transaction_id", ← fields.get "node_account_id",
      ← fields.get "transaction_fee", ← fields.get "transaction_valid_duration_secs",
      ← fields.get "memo", ← fields.get "operation"⟩

instance : JsonForm ScheduledBody where
  toJson b := .record [("transaction_fee", toJson b.transactionFee), ("memo", toJson b.memo),
    ("operation", toJson b.operation)]
  ofJson j := do
    let fields ← readRecord [.expect UInt64 "transaction_fee", .expect String "memo",
      .expect Operation "operation"] 0 j
    return ⟨← fields.get "transaction_fee", ← fields.get "memo", ← fields.get "operation"⟩

instance : JsonForm SignaturePair where
  toJson p := .record [("public_key", toJson p.publicKey), ("signature", toJson p.signature)]
  ofJson j := do
    let fields ← readRecord [.expect KeyBytes "public_key", .expect Bytes "signature"] 0 j
    return ⟨← fields.get "public_key", ← fields.get "signature"⟩

instance : JsonForm SignedTransaction where
  toJson t := .record [("body_bytes", toJson t.bodyBytes), ("sig_map", toJson t.sigMap)]
  ofJson j := do
    let fields ← readRecord [.expect Bytes "body_bytes",
      .expect (List SignaturePair) "sig_map"] 0 j
    return ⟨← fields.get "body_bytes", ← fields.get "sig_map"⟩

/-- A variant with one named field. -/
def readOnly {α : Type} [JsonForm α] (name : String) (j : Json) : Except Mismatch α := do
  let fields ← readRecord [.expect α name] 0 j
  fields.get name

instance : JsonForm Query where
  toJson
    | .transactionReceipt id =>
      .record [("TransactionReceipt", .record [("transaction_id", toJson id)])]
    | .accountBalance id => .record [("AccountBalance", .record [("account_id", toJson id)])]
  ofJson j := do
    match ← Json.variant? j with
    | ("TransactionReceipt", content) =>
      return .transactionReceipt (← Json.carried (readOnly "transaction_id") content)
    | ("AccountBalance", content) =>
      return .accountBalance (← Json.carried (readOnly "account_id") content)
    | (name, _) => throw (.unknownVariant name)

instance : JsonForm Request where
  toJson
    | .submitTransaction t => .record [("SubmitTransaction", toJson t)]
    | .query q => .record [("Query", toJson q)]
  ofJson j := do
    match ← Json.variant? j with
    | ("SubmitTransaction", content) =>
      return .submitTransaction (← Json.carried ofJson content)
    | ("Query", content) => return .query (← Json.carried ofJson content)
    | (name, _) => throw (.unknownVariant name)

instance : JsonForm Receipt where
  toJson r := .record [("status", toJson r.status)]
  ofJson j := do
    let fields ← readRecord [.expect Status "status"] 0 j
    return ⟨← fields.get "status"⟩

instance : JsonForm Payload where
  toJson
    | .none => .text "None"
    | .receipt r => .record [("Receipt", toJson r)]
    | .accountBalance n => .record [("AccountBalance", .record [("hbars", toJson n)])]
  ofJson j := do
    match ← Json.variant? j with
    | ("None", content) => do
      Json.carriesNothing content
      return .none
    | ("Receipt", content) => return .receipt (← Json.carried ofJson content)
    | ("AccountBalance", content) =>
      return .accountBalance (← Json.carried (readOnly "hbars") content)
    | (name, _) => throw (.unknownVariant name)

instance : JsonForm Response where
  toJson r := .record [("precheck", toJson r.precheck), ("payload", toJson r.payload)]
  ofJson j := do
    let fields ← readRecord [.expect Status "precheck", .expect Payload "payload"] 0 j
    return ⟨← fields.get "precheck", ← fields.get "payload"⟩

end Wire

end LedgerClient
