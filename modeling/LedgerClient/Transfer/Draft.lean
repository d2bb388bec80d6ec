import LedgerClient.Retry.Config
import LedgerClient.Ledger.TimestampReader
import LedgerClient.Transfer.Operation
import LedgerClient.Wire.Binary

/-!
# `LedgerClient.Transfer.Draft`: a transfer that can still be edited

A draft is the lists of the transfer and what every transaction has:
a memo, a fee ceiling, the length of its validity window, and
optionally the nodes it may go to and its name. What is not set has a
default, and each setter checks what it is given.

The body for a node is a function of the draft, the name and the
node. The window goes into it as whole seconds in a signed field of
64 bits, in which the low 64 bits of the number are kept.
-/

set_option autoImplicit false

namespace LedgerClient

/-- A transfer that can still be edited. -/
structure Draft where
  data : TransferData := {}
  memo : String := ""
  maxFee : Option UInt64 := none
  validDuration : Duration := 120 * 1000000000
  nodeIds : Option (List AccountId) := none
  transactionId : Option TransactionId := none
deriving DecidableEq

namespace Draft

/-- The fee ceiling of a transfer when none is set: one hbar, in tinybars. -/
def defaultFee : UInt64 := 100000000

/-- The longest memo, in bytes of UTF-8. -/
def maxMemoBytes : Nat := 100

/-- The length of a second. -/
def second : Duration := 1000000000

/-- The fee ceiling in tinybars. -/
def fee (d : Draft) : UInt64 := d.maxFee.getD defaultFee

/-- Sets the memo, if it is short enough. -/
def setMemo (d : Draft) (memo : String) : Except Error Draft :=
  let size := memo.utf8ByteSize
  if size ≤ maxMemoBytes then .ok { d with memo := memo }
  else .error (.invalidArgument (.memoTooLong size maxMemoBytes))

/-- Sets the fee ceiling. -/
def setFee (d : Draft) (tinybars : UInt64) : Draft := { d with maxFee := some tinybars }

/-- Sets the length of the validity window, which is at least a second. -/
def setValidDuration (d : Draft) (duration : Duration) : Except Error Draft :=
  if duration / second = 0 then .error (.invalidArgument .durationTooShort)
  else .ok { d with validDuration := duration }

/-- Sets the nodes that the transaction may go to, of which there is at least one. -/
def setNodeIds (d : Draft) (ids : List AccountId) : Except Error Draft :=
  if ids = [] then .error (.invalidArgument .emptyNodeList)
  else .ok { d with nodeIds := some ids }

/-- Sets the transaction's name. -/
def setTransactionId (d : Draft) (id : TransactionId) : Draft :=
  { d with transactionId := some id }

/-- Adds to the lists; see `TransferData`. -/
def edit (d : Draft) (change : TransferData → Except Error TransferData) :
    Except Error Draft :=
  (change d.data).map fun data => { d with data := data }

/-- The body that a node sees under a name. -/
def bodyFor (d : Draft) (id : TransactionId) (node : AccountId) : Wire.TransactionBody where
  transactionId := id.toWire
  nodeAccountId := node
  transactionFee := d.fee
  validDurationSecs := Int64.ofNat (d.validDuration / second)
  memo := d.memo
  operation := d.data.toOperation

/-- The body that a node sees, for a draft that has its name. -/
def body (d : Draft) (node : AccountId) : Except Error Wire.TransactionBody :=
  match d.transactionId with
  | some id => .ok (d.bodyFor id node)
  | none => .error (.illegalState .bodyWithoutId)

/-- The body inside a schedule, which has neither name nor node. -/
def scheduledBody (d : Draft) : Wire.ScheduledBody :=
  ⟨d.fee, d.memo, d.data.toOperation⟩

end Draft

end LedgerClient
