/-!
# `LedgerClient.Network.Fault`: failures of a round trip

A round trip to a node either brings bytes back or ends in one of
these faults. A fault says nothing about the request, so it is always
worth another attempt.
-/

set_option autoImplicit false

namespace LedgerClient

/-- Why a round trip brought no bytes back. -/
inductive Fault where
  | connectionRefused
  | timeout
  | reset
  | io (text : String)
deriving DecidableEq, Repr

/-- What kind of error the system reports on a stream. -/
inductive SystemError where
  | connectionRefused
  | timedOut
  | connectionReset
  | connectionAborted
  | brokenPipe
  | endOfStream
  | other
deriving DecidableEq, Repr

/-- The kind of a system error with a name; whatever has no name here is of the last kind. -/
def SystemError.ofName (name : String) : SystemError :=
  match name with
  | "ConnectionRefused" => connectionRefused
  | "TimedOut" => timedOut
  | "ConnectionReset" => connectionReset
  | "ConnectionAborted" => connectionAborted
  | "BrokenPipe" => brokenPipe
  | "UnexpectedEof" => endOfStream
  | _ => other

namespace Fault

/-- The name of a fault's kind. -/
def name : Fault → String
  | connectionRefused => "ConnectionRefused"
  | timeout => "Timeout"
  | reset => "Reset"
  | io _ => "Io"

/-- The text of a fault. -/
def message : Fault → String
  | connectionRefused => "connection refused"
  | timeout => "request timed out"
  | reset => "connection reset"
  | io text => "i/o error: " ++ text

/-- The fault that a system error is: a connection that was there and went away is a reset,
whichever side noticed, and so is a stream that ends early. -/
def ofSystemError (kind : SystemError) (text : String) : Fault :=
  match kind with
  | .connectionRefused => connectionRefused
  | .timedOut => timeout
  | .connectionReset | .connectionAborted | .brokenPipe | .endOfStream => reset
  | .other => io text

end Fault

end LedgerClient
