import LedgerClient.Request.Query
import LedgerClient.Transfer.Frozen

/-!
# `LedgerClient.Request.Submission`: sending a transaction

A transaction is sent to one node after another, to each with its own
body and signatures, until one accepts it. That is not success yet:
the node that accepted it is then asked for the receipt.

The client's operator signs before the first attempt unless it has
signed already, and a transaction that nobody has signed is not sent.
-/

set_option autoImplicit false

namespace LedgerClient

/-- What the acceptance of a transaction leaves: its name, the node that accepted it, and the
digest of the signed bytes that were sent there. -/
structure Submission where
  transactionId : TransactionId
  nodeId : AccountId
  hash : Bytes
deriving DecidableEq

namespace Frozen

/-- The request that sends a transaction. -/
def submission (f : Frozen) : Executable Submission where
  transactionId := some f.transactionId
  nodeIds := some f.nodeIds
  request node := (f.signed node.accountId).map fun signed =>
    requestBytes (.submitTransaction signed)
  verdict := Verdict.ofSubmission
  result node _ := (f.hash node.accountId).map fun hash =>
    ⟨f.transactionId, node.accountId, hash⟩

/-- Signs for the operator and sends. Gives back the transaction with the signatures it has
by then, whatever became of it. -/
def execute {σ : Type} (f : Frozen) (client : Client) (transport : Transport σ)
    (options : ExecuteOptions σ) (scene : Scene σ) : Frozen × Run σ Submission :=
  let f := f.signedByOperator client
  if f.signers = [] then
    (f, ⟨.error (.illegalState .unsigned), scene, client.network, []⟩)
  else (f, client.execute transport f.submission options scene)

end Frozen

/-- Asks the node that accepted a transaction for its receipt, which must report success. -/
def Submission.receipt {σ : Type} (s : Submission) (client : Client) (transport : Transport σ)
    (options : ExecuteOptions σ) (scene : Scene σ) : Run σ Receipt :=
  let run := client.execute transport (Receipt.query s.transactionId (some [s.nodeId]))
    options scene
  { run with result := run.result.bind Receipt.validate }

end LedgerClient
