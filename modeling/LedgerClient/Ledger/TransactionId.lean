import LedgerClient.Ledger.Entity
import LedgerClient.Ledger.Timestamp

/-!
# `LedgerClient.Ledger.TransactionId`: which transaction

A transaction is named by the account that pays for it and the
instant from which it is valid. The name is the same on every attempt
to submit it, which is how the ledger knows that two submissions are
one transaction.
-/

set_option autoImplicit false

namespace LedgerClient

/-- The paying account and the start of the validity window. -/
structure TransactionId where
  accountId : AccountId
  validStart : Timestamp
deriving DecidableEq, Repr, Inhabited

/-- The text of a transaction's name: `payer@seconds.nanoseconds`. -/
def TransactionId.text (id : TransactionId) : String :=
  id.accountId.text ++ "@" ++ id.validStart.text

end LedgerClient
