import LedgerClient.Bytes
import LedgerClient.Ledger.Status
import LedgerClient.Ledger.TransactionId

/-!
# `LedgerClient.Wire.Message`: what travels between client and node

A client sends a `Request` and a node answers with a `Response`.
Signatures are never part of a transaction's body: a
`SignedTransaction` carries the exact bytes that were signed and the
signatures beside them, so another signer changes nothing of what the
earlier ones signed.

The types here say what a message holds, and nothing about whether it
makes sense: an instant may be negative, a transfer list empty. What
a message means is checked where it is turned into one of the
ledger's nouns.
-/

set_option autoImplicit false

namespace LedgerClient

/-- A public key's bytes: thirty-two of them. -/
structure KeyBytes where
  bytes : Bytes
  length_eq : bytes.length = 32
deriving DecidableEq

/-- A key is no more than its bytes. -/
theorem KeyBytes.eq_of_bytes_eq {key key' : KeyBytes} (h : key.bytes = key'.bytes) :
    key = key' := by
  cases key
  cases key'
  cases h
  rfl

namespace Wire

/-- An instant as it travels, not yet known to be one. -/
structure Timestamp where
  seconds : Int64
  nanos : Int32
deriving DecidableEq, Repr

/-- A transaction's name as it travels. -/
structure TransactionId where
  accountId : AccountId
  validStart : Wire.Timestamp
deriving DecidableEq, Repr

/-- What one account gains, or loses when the amount is negative. -/
structure AccountAmount where
  accountId : AccountId
  amount : Int64
  isApproval : Bool
deriving DecidableEq, Repr

/-- One NFT of a token changing hands. -/
structure NftTransfer where
  senderAccountId : AccountId
  receiverAccountId : AccountId
  serialNumber : Int64
  isApproval : Bool
deriving DecidableEq, Repr

/-- The movements of one token, fungible or not. -/
structure TokenTransferList where
  token : TokenId
  transfers : List AccountAmount
  nftTransfers : List NftTransfer
  expectedDecimals : Option UInt32
deriving DecidableEq, Repr

/-- All movements of a transfer. -/
structure CryptoTransfer where
  transfers : List AccountAmount
  tokenTransfers : List TokenTransferList
deriving DecidableEq, Repr

/-- The part of a body that says what the transaction does. -/
inductive Operation where
  | cryptoTransfer (body : CryptoTransfer)
deriving DecidableEq, Repr

/-- Everything a signature covers. -/
structure TransactionBody where
  transactionId : Wire.TransactionId
  nodeAccountId : AccountId
  transactionFee : UInt64
  validDurationSecs : Int64
  memo : String
  operation : Operation
deriving DecidableEq, Repr

/-- A body inside a schedule, which supplies the name and the node. -/
structure ScheduledBody where
  transactionFee : UInt64
  memo : String
  operation : Operation
deriving DecidableEq, Repr

/-- A public key and its signature. -/
structure SignaturePair where
  publicKey : KeyBytes
  signature : Bytes
deriving DecidableEq

/-- The bytes that were signed, and the signatures over them. -/
structure SignedTransaction where
  bodyBytes : Bytes
  sigMap : List SignaturePair
deriving DecidableEq

/-- A question to a node. -/
inductive Query where
  | transactionReceipt (transactionId : Wire.TransactionId)
  | accountBalance (accountId : AccountId)
deriving DecidableEq, Repr

/-- What a client sends. -/
inductive Request where
  | submitTransaction (transaction : SignedTransaction)
  | query (query : Query)
deriving DecidableEq

/-- What consensus made of a transaction. -/
structure Receipt where
  status : Status
deriving DecidableEq, Repr

/-- The answer to a question, if any. -/
inductive Payload where
  | none
  | receipt (receipt : Receipt)
  | accountBalance (hbars : UInt64)
deriving DecidableEq, Repr

/-- What a node answers: its verdict on the request, and a payload that means something only
when the verdict is `ok`. -/
structure Response where
  precheck : Status
  payload : Payload
deriving DecidableEq, Repr

/-- An answer that is a verdict and nothing else. -/
def Response.verdictOnly (status : Status) : Response :=
  ⟨status, .none⟩

/-- How a payload is shown in a message. -/
def Payload.shown : Payload → String
  | .none => "None"
  | .receipt r => "Receipt(WireReceipt \x7b status: " ++ r.status.shown ++ " \x7d)"
  | .accountBalance hbars =>
    "AccountBalance \x7b hbars: " ++ Text.Decimal.natural hbars.toNat ++ " \x7d"

end Wire

end LedgerClient
