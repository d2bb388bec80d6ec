import LedgerClient.Retry.Config

/-!
# `LedgerClient.Retry.Cancellation`: calling a request off

A caller holds a handle and gives its signals to requests. Cancelling
the handle is final and reaches every signal, also one taken later. A
handle that is dropped without being cancelled can no longer be
cancelled, so its signals stay as they are for good.
-/

set_option autoImplicit false

namespace LedgerClient

/-- A handle and the signals that observe it. -/
structure Cancellation where
  /-- Whether the handle still exists. -/
  held : Bool
  /-- When the handle was cancelled, if it was. -/
  cancelledAt : Option Time
  /-- How many signals there are. -/
  signals : Nat
deriving DecidableEq, Repr

namespace Cancellation

/-- A handle and its first signal. -/
def fresh : Cancellation := ⟨true, none, 1⟩

/-- Cancels the handle, if it still exists. Only the first time counts. -/
def cancel (c : Cancellation) (now : Time) : Cancellation :=
  if c.held ∧ c.cancelledAt = none then { c with cancelledAt := some now } else c

/-- Drops the handle. -/
def drop (c : Cancellation) : Cancellation := { c with held := false }

/-- Another signal. -/
def subscribe (c : Cancellation) : Cancellation := { c with signals := c.signals + 1 }

/-- Whether a signal is cancelled at an instant. -/
def isCancelled (c : Cancellation) (now : Time) : Bool :=
  match c.cancelledAt with
  | some t => t ≤ now
  | none => false

/-- When a wait for the cancellation ends, if it ends within `limit`. With nobody left to act,
only a cancellation that has already happened is ever seen. -/
def waitEnd? (c : Cancellation) (now : Time) (limit : Duration) : Option Time :=
  match c.cancelledAt with
  | some t => if t ≤ now + limit then some (Nat.max now t) else none
  | none => none

end Cancellation

end LedgerClient
