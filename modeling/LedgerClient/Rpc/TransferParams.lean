import LedgerClient.Json.Form
import LedgerClient.Rpc.ErrorObject
import LedgerClient.Transfer.Draft

/-!
# `LedgerClient.Rpc.TransferParams`: a transfer in the parameters

A transfer is a list of entries, each of which moves one thing: hbar,
an amount of a token, or an NFT. Amounts are integers or, so that
callers without 64-bit numbers can write them, texts of integers.

First the shape of all parameters is checked, and only then is any
entry looked at. The entries are added one by one in their order, so
the first one that is wrong is the one that is reported; the memo and
the fee come after them.
-/

set_option autoImplicit false

namespace LedgerClient.Rpc

open Json (readRecord)

/-- An integer as a number or as a text. -/
inductive Amount where
  | number (n : Int64)
  | text (s : String)
deriving DecidableEq, Repr

instance : JsonForm Amount where
  toJson
    | .number n => toJson n
    | .text s => .text s
  ofJson
    | .text s => .ok (.text s)
    | j => match (ofJson j : Except Mismatch Int64) with
      | .ok n => .ok (.number n)
      | .error _ => .error (.noVariant "Number")

/-- The integer, where `name` says what it is in an error. -/
def Amount.value (name : String) : Amount → Except ErrorObject Int64
  | .number n => .ok n
  | .text s => match Text.Decimal.int64? s.toList with
    | some n => .ok n
    | none => .error (.invalidParams (name ++ " is not an integer: " ++ Text.quoted s))

/-- Hbar for an account. -/
structure HbarParam where
  accountId : String
  amount : Amount

/-- An amount of a token for an account. -/
structure TokenParam where
  accountId : String
  tokenId : String
  amount : Amount
  decimals : Option UInt32

/-- An NFT from one account to another. -/
structure NftParam where
  senderAccountId : String
  receiverAccountId : String
  tokenId : String
  serialNumber : Amount

/-- One entry of a transfer. -/
structure TransferParam where
  hbar : Option HbarParam
  token : Option TokenParam
  nft : Option NftParam
  approved : Bool

/-- The parameters of a transfer. -/
structure TransferParams where
  transfers : List TransferParam
  memo : Option String
  maxTransactionFee : Option Amount

instance : JsonForm HbarParam where
  toJson p := .record [("accountId", toJson p.accountId), ("amount", toJson p.amount)]
  ofJson j := do
    let fields ← readRecord [.expect String "accountId", .expect Amount "amount"] 0 j
    return ⟨← fields.get "accountId", ← fields.get "amount"⟩

instance : JsonForm TokenParam where
  toJson p := .record [("accountId", toJson p.accountId), ("tokenId", toJson p.tokenId),
    ("amount", toJson p.amount), ("decimals", toJson p.decimals)]
  ofJson j := do
    let fields ← readRecord [.expect String "accountId", .expect String "tokenId",
      .expect Amount "amount", .expect (Option UInt32) "decimals"] 0 j
    return ⟨← fields.get "accountId", ← fields.get "tokenId", ← fields.get "amount",
      ← fields.get "decimals"⟩

instance : JsonForm NftParam where
  toJson p := .record [("senderAccountId", toJson p.senderAccountId),
    ("receiverAccountId", toJson p.receiverAccountId), ("tokenId", toJson p.tokenId),
    ("serialNumber", toJson p.serialNumber)]
  ofJson j := do
    let fields ← readRecord [.expect String "senderAccountId",
      .expect String "receiverAccountId", .expect String "tokenId",
      .expect Amount "serialNumber"] 0 j
    return ⟨← fields.get "senderAccountId", ← fields.get "receiverAccountId",
      ← fields.get "tokenId", ← fields.get "serialNumber"⟩

instance : JsonForm TransferParam where
  toJson p := .record [("hbar", toJson p.hbar), ("token", toJson p.token),
    ("nft", toJson p.nft), ("approved", toJson p.approved)]
  ofJson j := do
    let fields ← readRecord [.expect (Option HbarParam) "hbar",
      .expect (Option TokenParam) "token", .expect (Option NftParam) "nft",
      .expect Bool "approved"] 1 j
    return ⟨← fields.get "hbar", ← fields.get "token", ← fields.get "nft",
      ← fields.getD "approved" false⟩

instance : JsonForm TransferParams where
  toJson p := .record [("transfers", toJson p.transfers), ("memo", toJson p.memo),
    ("maxTransactionFee", toJson p.maxTransactionFee)]
  ofJson j := do
    let fields ← readRecord [.expect (List TransferParam) "transfers",
      .expect (Option String) "memo", .expect (Option Amount) "maxTransactionFee"] 0 j
    return ⟨← fields.get "transfers", ← fields.get "memo", ← fields.get "maxTransactionFee"⟩

/-- A client's result with its error as an error object. -/
def lift {α : Type} (result : Except Error α) : Except ErrorObject α :=
  result.mapError .ofError

/-- The draft with one more entry. -/
def TransferParam.addTo (p : TransferParam) (draft : Draft) : Except ErrorObject Draft :=
  match p.hbar, p.token, p.nft with
  | some hbar, none, none => do
    let account ← lift (AccountId.parse hbar.accountId)
    let amount ← hbar.amount.value "amount"
    lift (draft.edit fun data => data.addHbar (.account account) amount p.approved)
  | none, some token, none => do
    let tokenId ← lift (TokenId.parse token.tokenId)
    let account ← lift (AccountId.parse token.accountId)
    let amount ← token.amount.value "amount"
    lift (draft.edit fun data =>
      data.addToken (.token tokenId) (.account account) amount token.decimals p.approved)
  | none, none, some nft => do
    let serial ← nft.serialNumber.value "serialNumber"
    if serial ≤ 0 then
      throw (.invalidParams
        ("serialNumber must be positive, got " ++ Text.Decimal.integer serial.toInt))
    let tokenId ← lift (TokenId.parse nft.tokenId)
    let sender ← lift (AccountId.parse nft.senderAccountId)
    let receiver ← lift (AccountId.parse nft.receiverAccountId)
    lift (draft.edit fun data =>
      data.addNft (.nft ⟨tokenId, serial⟩) (.account sender) (.account receiver) p.approved)
  | _, _, _ => .error (.invalidParams "each transfer needs exactly one of hbar, token or nft")

namespace TransferParams

/-- The parameters in a JSON value. -/
def parse (params : Json) : Except ErrorObject TransferParams :=
  match ofJson params with
  | .ok p => .ok p
  | .error mismatch => .error (.invalidParams mismatch.message)

/-- The draft with the memo that the parameters give. -/
def setMemo (p : TransferParams) (draft : Draft) : Except ErrorObject Draft :=
  match p.memo with
  | some memo => lift (draft.setMemo memo)
  | none => .ok draft

/-- The draft with the fee ceiling that the parameters give. -/
def setFee (p : TransferParams) (draft : Draft) : Except ErrorObject Draft :=
  match p.maxTransactionFee with
  | some fee => do
    let fee ← fee.value "maxTransactionFee"
    if fee < 0 then throw (.invalidParams "maxTransactionFee must not be negative")
    return draft.setFee (UInt64.ofNat fee.toInt.toNat)
  | none => .ok draft

/-- The draft that the parameters describe. -/
def draft (p : TransferParams) : Except ErrorObject Draft := do
  let draft ← p.transfers.foldlM (fun draft entry => entry.addTo draft) ({} : Draft)
  let draft ← p.setMemo draft
  p.setFee draft

end TransferParams

end LedgerClient.Rpc
