import LedgerClient.Error
import LedgerClient.Json.Form

/-!
# `LedgerClient.Retry.Config`: a client's settings

All times are whole milliseconds of 64 bits. Every setting has a
default, and a text may leave out any of them. The settings are
checked in a fixed order, so the first violated rule is the one that
is reported: at least one attempt, then the two pairs of bounds, then
some time for a round trip.

`Time` and `Duration` count nanoseconds: a number of milliseconds is
always a whole number of them, and a caller may ask for less than a
millisecond.
-/

set_option autoImplicit false

namespace LedgerClient

/-- A length of time in nanoseconds. -/
abbrev Duration := Nat

/-- An instant of the client's own clock, in nanoseconds since some start. -/
abbrev Time := Nat

/-- The length of a number of milliseconds. -/
def milliseconds (n : UInt64) : Duration :=
  n.toNat * 1000000

/-- The longest that a clock's timer runs: thirty years of 365 days. -/
def longestTimer : Duration :=
  30 * 365 * 86400 * 1000000000

/-- Retry and timeout settings of a client, in milliseconds. -/
structure ClientConfig where
  minBackoffMs : UInt64 := 250
  maxBackoffMs : UInt64 := 8000
  maxAttempts : UInt32 := 10
  requestTimeoutMs : UInt64 := 10000
  deadlineMs : Option UInt64 := none
  nodeMinBackoffMs : UInt64 := 8000
  nodeMaxBackoffMs : UInt64 := 3600000
deriving DecidableEq, Repr

namespace ClientConfig

/-- The default settings. -/
def default : ClientConfig := {}

/-- The first rule that the settings break, if they break one. -/
def fault? (c : ClientConfig) : Option ArgumentFault :=
  if c.maxAttempts = 0 then some .noAttempts
  else if c.maxBackoffMs < c.minBackoffMs then
    some (.backoffBounds c.minBackoffMs c.maxBackoffMs)
  else if c.nodeMaxBackoffMs < c.nodeMinBackoffMs then
    some (.nodeBackoffBounds c.nodeMinBackoffMs c.nodeMaxBackoffMs)
  else if c.requestTimeoutMs = 0 then some .noRequestTimeout
  else none

/-- Rejects settings that cannot be honoured. -/
def validate (c : ClientConfig) : Except Error Unit :=
  match c.fault? with
  | some fault => .error (.invalidArgument fault)
  | none => .ok ()

instance : JsonForm ClientConfig where
  toJson c := .record [
    ("min_backoff_ms", toJson c.minBackoffMs), ("max_backoff_ms", toJson c.maxBackoffMs),
    ("max_attempts", toJson c.maxAttempts), ("request_timeout_ms", toJson c.requestTimeoutMs),
    ("deadline_ms", toJson c.deadlineMs), ("node_min_backoff_ms", toJson c.nodeMinBackoffMs),
    ("node_max_backoff_ms", toJson c.nodeMaxBackoffMs)]
  ofJson j := do
    let fields ← Json.readRecord [
      .expect UInt64 "min_backoff_ms", .expect UInt64 "max_backoff_ms",
      .expect UInt32 "max_attempts", .expect UInt64 "request_timeout_ms",
      .expect (Option UInt64) "deadline_ms", .expect UInt64 "node_min_backoff_ms",
      .expect UInt64 "node_max_backoff_ms"] 7 j
    return {
      minBackoffMs := ← fields.getD "min_backoff_ms" default.minBackoffMs
      maxBackoffMs := ← fields.getD "max_backoff_ms" default.maxBackoffMs
      maxAttempts := ← fields.getD "max_attempts" default.maxAttempts
      requestTimeoutMs := ← fields.getD "request_timeout_ms" default.requestTimeoutMs
      deadlineMs := ← fields.getD "deadline_ms" default.deadlineMs
      nodeMinBackoffMs := ← fields.getD "node_min_backoff_ms" default.nodeMinBackoffMs
      nodeMaxBackoffMs := ← fields.getD "node_max_backoff_ms" default.nodeMaxBackoffMs }

/-- The settings in a text, checked. -/
def parse (text : String) : Except Error ClientConfig :=
  match Json.decode? text with
  | none => .error (.invalidArgument .malformedConfig)
  | some config => do
    config.validate
    return config

/-- The settings as they are shown. -/
def shown (c : ClientConfig) : String :=
  let num (n : Nat) : String := Text.Decimal.natural n
  let deadline := match c.deadlineMs with
    | none => "None"
    | some ms => "Some(" ++ num ms.toNat ++ ")"
  "ClientConfig \x7b min_backoff_ms: " ++ num c.minBackoffMs.toNat ++
    ", max_backoff_ms: " ++ num c.maxBackoffMs.toNat ++
    ", max_attempts: " ++ num c.maxAttempts.toNat ++
    ", request_timeout_ms: " ++ num c.requestTimeoutMs.toNat ++
    ", deadline_ms: " ++ deadline ++
    ", node_min_backoff_ms: " ++ num c.nodeMinBackoffMs.toNat ++
    ", node_max_backoff_ms: " ++ num c.nodeMaxBackoffMs.toNat ++ " \x7d"

end ClientConfig

end LedgerClient
