import LedgerClient.Text.Decimal

/-!
# `LedgerClient.Ledger.Timestamp`: instants to the nanosecond

An instant is a number of whole seconds since the epoch and a number
of nanoseconds below one second. The two fields are machine integers,
because that is what travels; `Valid` says which pairs are instants,
and `ofNanos` builds one from the exact number of nanoseconds, which
is the form in which all arithmetic is done.

The range ends with the seconds: `plusNanos` keeps the nanoseconds
and holds the seconds at their largest value when a sum leaves it.
-/

set_option autoImplicit false

namespace LedgerClient

/-- A number of seconds since the epoch and a number of nanoseconds. -/
structure Timestamp where
  seconds : Int64
  nanos : Int32
deriving DecidableEq, Repr, Inhabited

namespace Timestamp

/-- The nanoseconds of a second. -/
def nanosPerSecond : Nat := 1000000000

/-- The nanoseconds of a millisecond. -/
def nanosPerMilli : Nat := 1000000

/-- The largest number of seconds. -/
def maxSeconds : Int := Int64.maxValue.toInt

/-- Not before the epoch, and less than a second of nanoseconds. -/
def Valid (t : Timestamp) : Prop :=
  0 ≤ t.seconds.toInt ∧ 0 ≤ t.nanos.toInt ∧ t.nanos.toInt < nanosPerSecond

instance (t : Timestamp) : Decidable t.Valid := by
  unfold Valid; infer_instance

/-- The exact number of nanoseconds since the epoch. -/
def totalNanos (t : Timestamp) : Int :=
  t.seconds.toInt * nanosPerSecond + t.nanos.toInt

/-- The instant that many nanoseconds after the epoch. -/
def ofNanos (n : Nat) : Timestamp :=
  ⟨Int64.ofNat (n / nanosPerSecond), Int32.ofNat (n % nanosPerSecond)⟩

/-- The instant `n` nanoseconds later; the seconds stop at their largest value. -/
def plusNanos (t : Timestamp) (n : UInt64) : Timestamp :=
  let total := t.nanos.toInt.toNat + n.toNat
  let seconds := t.seconds.toInt + (total / nanosPerSecond : Nat)
  ⟨Int64.ofInt (min seconds maxSeconds), Int32.ofNat (total % nanosPerSecond)⟩

/-- Instants compare by their seconds and then by their nanoseconds. -/
def compare (a b : Timestamp) : Ordering :=
  (Ord.compare a.seconds.toInt b.seconds.toInt).then
    (Ord.compare a.nanos.toInt b.nanos.toInt)

/-- The text of an instant: the seconds, a point, and nine digits. -/
def text (t : Timestamp) : String :=
  Text.Decimal.integer t.seconds.toInt ++ "." ++
    String.ofList (Text.Decimal.padded 9 t.nanos.toInt.toNat)

end Timestamp

end LedgerClient
