import LedgerClient.Client
import LedgerClient.Retry.Engine
import LedgerClient.Ledger.TimestampReader

/-!
# `LedgerClient.Request.Query`: asking for receipts and balances

A receipt says what consensus made of a transaction. Until there is
one the question is asked again, so a receipt that reaches the caller
is final; only one status of it means success.

An answer that was accepted but carries something else than what was
asked for is an error of the answer, not of the request.
-/

set_option autoImplicit false

namespace LedgerClient

/-- What consensus made of a transaction. -/
structure Receipt where
  status : Status
  transactionId : TransactionId
deriving DecidableEq, Repr

/-- What an account holds, in tinybars. -/
structure Balance where
  accountId : AccountId
  hbars : UInt64
deriving DecidableEq, Repr

/-- The bytes of a request. -/
def requestBytes (request : Wire.Request) : Bytes :=
  Wire.Request.codec.encode request

namespace Receipt

/-- The receipt, if it reports success. -/
def validate (r : Receipt) : Except Error Receipt :=
  if r.status = .success then .ok r else .error (.receiptStatus r.status r.transactionId)

/-- The question for the receipt of a transaction, to some nodes or to any. -/
def query (id : TransactionId) (nodes : Option (List AccountId)) : Executable Receipt where
  transactionId := some id
  nodeIds := nodes
  request _ := .ok (requestBytes (.query (.transactionReceipt id.toWire)))
  verdict := Verdict.ofReceipt
  result _ response :=
    match response.payload with
    | .receipt receipt => .ok ⟨receipt.status, id⟩
    | other => .error (.codec (.wrongPayload "receipt" other))

end Receipt

/-- The question for what an account holds, to some nodes or to any. -/
def Balance.query (account : AccountId) (nodes : Option (List AccountId)) :
    Executable Balance where
  transactionId := none
  nodeIds := nodes
  request _ := .ok (requestBytes (.query (.accountBalance account)))
  verdict := Verdict.ofQuery
  result _ response :=
    match response.payload with
    | .accountBalance hbars => .ok ⟨account, hbars⟩
    | other => .error (.codec (.wrongPayload "balance" other))

namespace Client

variable {σ α : Type}

/-- Carries out a request with the client's network and settings. -/
def execute (client : Client) (transport : Transport σ) (exec : Executable α)
    (options : ExecuteOptions σ) (scene : Scene σ) : Run σ α :=
  LedgerClient.execute transport client.config client.network exec options scene

/-- The client after a request, which shares the network with it. -/
def after (client : Client) (run : Run σ α) : Client :=
  { client with network := run.network }

end Client

end LedgerClient
