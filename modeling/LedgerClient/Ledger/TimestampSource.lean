import LedgerClient.Ledger.TransactionId

/-!
# `LedgerClient.Ledger.TimestampSource`: fresh instants

Two transactions of one payer must not start at the same instant, and
a node turns down a start that its own clock has not reached. Fresh
instants come from two sources, each a function of what the machine's
clock shows.

`jittered` moves the clock's reading back by three to eight seconds,
so that a node whose clock is a little behind still accepts it, and
adds a random part of a millisecond. Its random choices are a `Draw`,
which carries the proof that they are in range.

`Monotonic` never hands out an instant twice, however the clock
behaves: the next one is the clock's reading, or the one after the
last if the clock has not passed it.
-/

set_option autoImplicit false

namespace LedgerClient

namespace Timestamp

/-- The least and the largest number of milliseconds by which a fresh start lies back. -/
def minBackdateMs : Nat := 3000

/-- See `minBackdateMs`. -/
def maxBackdateMs : Nat := 8000

/-- The nanoseconds since the epoch that a clock shows. A clock before the epoch, or beyond
what 63 bits of nanoseconds reach, counts as standing at the epoch. -/
def reading (nanos : Int) : Nat :=
  if nanos ≤ Int64.maxValue.toInt then nanos.toNat else 0

/-- The instant that a clock shows. -/
def now (clock : Int) : Timestamp :=
  ofNanos (reading clock)

/-- The random choices of one fresh start. -/
structure Draw where
  backdateMs : Nat
  subMilli : Nat
  minBackdate_le : minBackdateMs ≤ backdateMs
  backdate_le_max : backdateMs ≤ maxBackdateMs
  subMilli_lt : subMilli < nanosPerMilli

/-- The choices that two numbers of any size stand for: each is taken modulo the number of
choices there are. -/
def Draw.ofNumbers (backdate subMilli : Nat) : Draw where
  backdateMs := minBackdateMs + backdate % (maxBackdateMs - minBackdateMs + 1)
  subMilli := subMilli % nanosPerMilli
  minBackdate_le := Nat.le_add_right _ _
  backdate_le_max := by simp only [minBackdateMs, maxBackdateMs]; omega
  subMilli_lt := Nat.mod_lt _ (by decide)

/-- A fresh start, from a clock's reading and random choices. It is never before the epoch. -/
def jittered (reading : Nat) (draw : Draw) : Timestamp :=
  ofNanos ((reading : Int) - (draw.backdateMs * nanosPerMilli : Nat) + (draw.subMilli : Int)).toNat

/-- The value after `last` that a monotonic source hands out when the clock shows `reading`. -/
def nextNanos (last reading : Nat) : Nat :=
  max reading (last + 1)

/-- The instants that a monotonic source hands out for a row of clock readings. -/
def monotonic (last : Nat) : List Nat → List Timestamp
  | [] => []
  | reading :: readings =>
    let next := nextNanos last reading
    ofNanos next :: monotonic next readings

end Timestamp

/-- A fresh name for a transaction of an account. -/
def TransactionId.generate (payer : AccountId) (reading : Nat) (draw : Timestamp.Draw) :
    TransactionId :=
  ⟨payer, Timestamp.jittered reading draw⟩

end LedgerClient
