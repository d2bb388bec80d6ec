import LedgerClient.Retry.Engine

/-!
# `LedgerClient.Simulation.ScriptedLedger`: nodes that answer by a script

A ledger for trying clients out. Each node has a script, whose next
line says what its next call brings; when the script is used up, or
has a blank line, the node does what a healthy node would. The ledger
remembers every call it received, in order.
-/

set_option autoImplicit false

namespace LedgerClient.Simulation

/-- What a call asked for. -/
inductive Asked where
  | submit (body : Wire.TransactionBody) (signatures : List Wire.SignaturePair)
  | query (query : Wire.Query)

/-- What a call asked for, if its bytes can be read. -/
def asked? (call : Call) : Option Asked := do
  match ← Wire.Request.codec.decode? call.request with
  | .submitTransaction signed =>
    return .submit (← Wire.TransactionBody.codec.decode? signed.bodyBytes) signed.sigMap
  | .query query => return .query query

/-- What a line of a script makes a node do. -/
inductive Act where
  | fault (fault : Fault)
  | respond (response : Wire.Response)
  | raw (bytes : Bytes)
  | hang
  | serve

/-- A line of a script: how long the node takes, and what it does. -/
structure Line where
  delay : Duration
  act : Act

/-- The scripts that are left, what every account holds, and the calls received. -/
structure ScriptedLedger where
  balance : UInt64 := 0
  scripts : Table AccountId (List Line) := []
  received : List Call := []

namespace ScriptedLedger

/-- The answer of a healthy node. Bytes that are no request are refused. -/
def served (ledger : ScriptedLedger) (request : Bytes) : Wire.Response :=
  match Wire.Request.codec.decode? request with
  | some (.submitTransaction _) => .verdictOnly .ok
  | some (.query (.transactionReceipt _)) => ⟨.ok, .receipt ⟨.success⟩⟩
  | some (.query (.accountBalance _)) => ⟨.ok, .accountBalance ledger.balance⟩
  | none => .verdictOnly .invalidTransactionStart

/-- The next line of a node's script, and the scripts without it. -/
def nextLine (ledger : ScriptedLedger) (node : AccountId) : Line × ScriptedLedger :=
  match Table.get? node ledger.scripts with
  | some (line :: rest) =>
    (line, { ledger with scripts := Table.insert node rest ledger.scripts })
  | _ => (⟨0, .serve⟩, ledger)

/-- The timers of the simulation give up at the longest one. -/
def timer (length : Duration) : Duration :=
  min length longestTimer

/-- What a call brings. -/
def answer (ledger : ScriptedLedger) (call : Call) : Reply × ScriptedLedger :=
  let (line, after) := ledger.nextLine call.node.accountId
  let after := { after with received := ledger.received ++ [call] }
  let latency := some (timer line.delay)
  let encoded (r : Wire.Response) : Except Fault Bytes := .ok (Wire.Response.codec.encode r)
  let reply : Reply := match line.act with
    | .hang => ⟨none, .error .timeout⟩
    | .fault fault => ⟨latency, .error fault⟩
    | .respond response => ⟨latency, encoded response⟩
    | .raw bytes => ⟨latency, .ok bytes⟩
    | .serve => ⟨latency, encoded (ledger.served call.request)⟩
  (reply, after)

/-- The transport to a scripted ledger. -/
def transport : Transport ScriptedLedger := ⟨answer, timer⟩

end ScriptedLedger

end LedgerClient.Simulation
