import LedgerClient.Ledger.EntityReader

/-!
# `LedgerClient.Ledger.TimestampReader`: instants and names from their parts

`Timestamp.make` is the only way in: whatever is read, from text, from
a message or from a calendar date, becomes an instant there or not at
all. The text of an instant is a signed numeral of seconds and an
optional fraction of at most nine digits: `1.5` is a second and a half.
The sign is one of the seconds, and zero has none, so that `-0.5` is
half a second after the epoch.
-/

set_option autoImplicit false

namespace LedgerClient

namespace Timestamp

/-- The instant with the given fields, if there is one. -/
def make (seconds : Int64) (nanos : Int32) : Except Error Timestamp :=
  if (Timestamp.mk seconds nanos).Valid then .ok ⟨seconds, nanos⟩
  else .error (.invalidArgument (.instantOutOfRange seconds nanos))

/-- The instant a whole number of seconds after the epoch. -/
def ofUnixSeconds (seconds : Int64) : Except Error Timestamp :=
  make seconds 0

/-- The nanoseconds that a fraction of at most nine digits denotes. -/
def fractionNanos? (digits : List Char) : Option Nat :=
  if digits.length ≤ 9 ∧ digits.all Text.Decimal.isDigit then
    some (Text.Decimal.value (digits ++ List.replicate (9 - digits.length) '0'))
  else none

/-- The fields that a text denotes, before they are checked to be an instant. -/
def fields? (cs : List Char) : Option (Int64 × Int32) := do
  let (whole, fraction) := (Text.splitFirst '.' cs).getD (cs, [])
  let nanos ← fractionNanos? fraction
  let seconds ← Text.Decimal.int64? whole
  return (seconds, Int32.ofNat nanos)

/-- The instant with a text. -/
def parse (text : String) : Except Error Timestamp :=
  match fields? text.toList with
  | some (seconds, nanos) => make seconds nanos
  | none => .error (.invalidArgument (.malformedInstant text))

/-- The instant as it travels. -/
def toWire (t : Timestamp) : Wire.Timestamp :=
  ⟨t.seconds, t.nanos⟩

/-- The instant that travelled. -/
def ofWire (w : Wire.Timestamp) : Except Error Timestamp :=
  make w.seconds w.nanos

end Timestamp

namespace TransactionId

/-- The transaction's name as it travels. -/
def toWire (id : TransactionId) : Wire.TransactionId :=
  ⟨id.accountId, id.validStart.toWire⟩

/-- The transaction's name that travelled. -/
def ofWire (w : Wire.TransactionId) : Except Error TransactionId :=
  (Timestamp.ofWire w.validStart).map fun start => ⟨w.accountId, start⟩

/-- The transaction with a text; the account is looked at before the instant. -/
def parse (text : String) : Except Error TransactionId :=
  match Text.splitFirst '@' text.toList with
  | none => .error (.invalidArgument (.namelessStart text))
  | some (account, start) => do
    let account ← AccountId.parse (String.ofList account)
    let start ← Timestamp.parse (String.ofList start)
    return ⟨account, start⟩

end TransactionId

end LedgerClient
