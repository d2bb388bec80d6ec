import LedgerClient.CommandLine
import LedgerClient.Ledger.TimestampSource
import LedgerClient.Rpc.Http
import LedgerClient.Simulation.ScriptedLedger
import Std.Time.DateTime.Timestamp

/-!
# `LedgerClient.Main`: the service on standard input

Reads the options, and then one body a line from standard input, each
of which is answered on a line of its own as if it had been posted to
`/`. The ledger behind the clients is a simulated one whose nodes are
all healthy, so callers can be tried out without a network.

All decisions are made in the modules this one imports. What is left
here is the outside: the machine's clock, its source of randomness,
and the lines.
-/

set_option autoImplicit false

namespace LedgerClient.Main

open Simulation (ScriptedLedger)

/-- What is written when the arguments ask for it, or are not understood. -/
def usage : String :=
  "usage: [--host HOST] [--port PORT] [--log-format pretty|json]"

/-- What is written when there are no settings, and the exit code. -/
def stopped : CommandLine.Stop → String × UInt32
  | .help => (usage, 0)
  | .version => ("0.1.0", 0)
  | .badValue => ("error: invalid value; " ++ usage, 2)
  | .missingValue => ("error: a value is required; " ++ usage, 2)
  | .unexpectedValue => ("error: unexpected value; " ++ usage, 2)
  | .unknownArgument => ("error: unexpected argument; " ++ usage, 2)
  | .repeatedOption => ("error: option given twice; " ++ usage, 2)

/-- A fresh start for a transaction, from the machine's clock. -/
def freshStart : IO Timestamp := do
  let clock ← Std.Time.Timestamp.now
  let draw := Timestamp.Draw.ofNumbers (← IO.rand 0 999999) (← IO.rand 0 999999)
  return Timestamp.jittered (Timestamp.reading clock.toNanosecondsSinceUnixEpoch.val) draw

/-- Answers one line after another until there are no more. -/
partial def serve (service : Rpc.Service) (scene : Scene ScriptedLedger) : IO Unit := do
  let line ← (← IO.getStdin).getLine
  if line.isEmpty then return
  let (response, service, scene) := Rpc.Http.respond service ScriptedLedger.transport "POST" "/"
    (Bytes.ofText line) (← freshStart) scene
  let out ← IO.getStdout
  out.putStrLn response.body
  out.flush
  serve service scene

end LedgerClient.Main

/-- Starts the service as the arguments say. -/
def main (args : List String) : IO UInt32 := do
  match LedgerClient.CommandLine.parse args with
  | .error stop =>
    let (text, code) := LedgerClient.Main.stopped stop
    IO.eprintln text
    return code
  | .ok settings =>
    IO.eprintln ("ready for " ++ settings.bindAddress)
    LedgerClient.Main.serve {} ⟨0, {}⟩
    return 0
