import LedgerClient.Wire.Message

/-!
# `LedgerClient.Retry.Verdict`: what an answer means for the request

Every answer has exactly one verdict, by a table for each kind of
request. All three retry on a transient status. They differ in what
else is worth waiting for: to a submission `ok` is the end, a receipt
is asked for again until consensus has made up its mind, and a query
has nothing to wait for.
-/

set_option autoImplicit false

namespace LedgerClient

/-- What to do with an answer. -/
inductive Verdict where
  /-- Not now: wait, and ask another node. -/
  | retry (status : Status)
  /-- This is the answer. -/
  | finished
  /-- Refused for good. -/
  | error (status : Status)
  /-- The window in which the request was valid is over. -/
  | expired (status : Status)
deriving DecidableEq, Repr

namespace Verdict

/-- The verdict on the answer to a submission. -/
def ofSubmission (r : Wire.Response) : Verdict :=
  if r.precheck.isTransient then retry r.precheck
  else match r.precheck with
    | .ok => finished
    | .transactionExpired => expired .transactionExpired
    | status => error status

/-- Whether a receipt with this status is still open. -/
def isPending : Status → Bool
  | .busy | .unknown | .ok | .receiptNotFound => true
  | _ => false

/-- The verdict on the answer to a question for a receipt. -/
def ofReceipt (r : Wire.Response) : Verdict :=
  if r.precheck.isTransient then retry r.precheck
  else match r.precheck with
    | .unknown => retry .unknown
    | .receiptNotFound => retry .receiptNotFound
    | .ok => match r.payload with
      | .receipt receipt =>
        if isPending receipt.status then retry receipt.status else finished
      | _ => error .unknown
    | status => error status

/-- The verdict on the answer to any other question. -/
def ofQuery (r : Wire.Response) : Verdict :=
  if r.precheck.isTransient then retry r.precheck
  else match r.precheck with
    | .ok => finished
    | status => error status

end Verdict

end LedgerClient
