import LedgerClient.Json.Lookup
import LedgerClient.Simulation.Session
import LedgerClient.Wire.Form

/-!
# `LedgerClient.Simulation.Script`: scripts in JSON

A ledger to try clients against is described by a record: what every
account holds, and a list of lines for each node by its account. A
line says what the node does with one call and, in milliseconds, after
how long. A line that says nothing is what a healthy node would do.

The options of a request are a record as well, in which what is left
out comes from the client's settings.
-/

set_option autoImplicit false

namespace LedgerClient

/-- The fault with a name, as scripts write it. -/
def Fault.ofName? (name : String) : Option Fault :=
  match name with
  | "refused" => some .connectionRefused
  | "timeout" => some .timeout
  | "reset" => some .reset
  | _ => (Text.dropLeading? ['i', 'o', ':'] name.toList).map fun cs => .io (String.ofList cs)

namespace Simulation

/-- What a line makes a node do; the first of its fields that is given decides. -/
def Act.ofJson? (j : Json) : Option Act :=
  let given (name : String) : Bool := (j.given? name).isSome
  let text (name : String) : Option String := j.get? String name
  if given "fault" then ((text "fault").bind Fault.ofName?).map .fault
  else if given "precheck" then
    (j.get? Status "precheck").map fun status => .respond (.verdictOnly status)
  else if given "receipt" then
    (j.get? Status "receipt").map fun status => .respond ⟨.ok, .receipt ⟨status⟩⟩
  else if given "response" then (j.get? Wire.Response "response").map .respond
  else if given "raw" then ((text "raw").bind Hex.decode?).map .raw
  else if given "hang" then some .hang
  else some .serve

/-- A length of time in a field, in milliseconds, if it is given. -/
def span? (j : Json) (name : String) : Option (Option Duration) :=
  (j.optional? UInt64 name).map fun n => n.map milliseconds

/-- A line of a script. -/
def Line.ofJson? (j : Json) : Option Line := do
  return ⟨(← span? j "delay_ms").getD 0, ← Act.ofJson? j⟩

/-- The scripts by node. -/
def scripts? : Option Json → Option (Table AccountId (List Line))
  | some (.record fields) => fields.mapM fun (id, script) => do
    let id ← (AccountId.parse id).toOption
    match script with
    | .list lines => return (id, ← lines.mapM Line.ofJson?)
    | _ => none
  | some _ => none
  | none => some []

/-- The ledger that a record describes. -/
def ScriptedLedger.ofJson? (j : Json) : Option ScriptedLedger := do
  return {
    balance := (← j.optional? UInt64 "balance").getD 0
    scripts := ← scripts? (j.given? "scripts") }

/-- When the caller cancels, as the options of a request say. -/
def Interruption.ofJson? (j : Json) : Option Interruption := do
  match ← j.optional? UInt32 "cancel_on_call", ← span? j "cancel_after_ms" with
  | some n, _ => return .onCall n.toNat
  | none, some wait => return .after wait
  | none, none => return .never

/-- The options of a request that begins at `start`, from which its deadline counts. -/
def options? (j : Json) (start : Time) : Option (ExecuteOptions ScriptedLedger) := do
  let interruption ← Interruption.ofJson? j
  return {
    maxAttempts := ← j.optional? UInt32 "max_attempts"
    minBackoff := ← span? j "min_backoff_ms"
    maxBackoff := ← span? j "max_backoff_ms"
    requestTimeout := ← span? j "request_timeout_ms"
    deadline := (← span? j "deadline_ms").map fun wait => start + wait
    cancelledAt := interruption.time start }

end Simulation

end LedgerClient
