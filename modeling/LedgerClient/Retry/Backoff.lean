import LedgerClient.Retry.Config

/-!
# `LedgerClient.Retry.Backoff`: how long to wait before a retry

The wait before the first retry is the minimum, and every later one
doubles until it reaches the maximum and stays there. The doubling is
done with a factor of 32 bits, so from the thirty-third retry on the
wait is the maximum, whatever the minimum.

Retries are counted with 32 bits in the program. A number beyond
`2 ^ 32 - 1` stands for no retry there, and what is said of it here is
said of nothing.
-/

set_option autoImplicit false

namespace LedgerClient

/-- The bounds of the wait between attempts. -/
structure Backoff where
  min : Duration
  max : Duration
  min_le_max : min ≤ max
deriving DecidableEq, Repr

namespace Backoff

/-- The bounds, where a maximum below the minimum is raised to it. -/
def ofBounds (min max : Duration) : Backoff :=
  ⟨min, Nat.max max min, Nat.le_max_right _ _⟩

/-- The last retry whose factor has 32 bits. -/
def lastDoubling : Nat := 32

/-- The wait before a retry, counted from one. There is no wait before the first attempt. The
program has retries up to number `2 ^ 32 - 1` only. -/
def delay (b : Backoff) (retry : Nat) : Duration :=
  if retry = 0 then 0
  else if retry ≤ lastDoubling then Nat.min (b.min <<< (retry - 1)) b.max
  else b.max

/-- The waits before the first `count` retries, which the program has for a `count` of up to
`2 ^ 32 - 1` only. -/
def delays (b : Backoff) (count : Nat) : List Duration :=
  (List.range count).map fun k => b.delay (k + 1)

end Backoff

end LedgerClient
