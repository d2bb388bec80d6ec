import LedgerClient.Request.Submission
import LedgerClient.Simulation.ScriptedLedger

/-!
# `LedgerClient.Simulation.Session`: a client in front of a scripted ledger

Requests are made one after another: each starts at the time at which
the one before it ended, with the network as that one left it. The
ledger's record of calls is emptied between them, so that it always
tells what the latest request did.
-/

set_option autoImplicit false

namespace LedgerClient.Simulation

/-- A client, the ledger it talks to, and the time. -/
structure Session where
  client : Client
  scene : Scene ScriptedLedger

/-- When the caller of a request cancels it. -/
inductive Interruption where
  | never
  /-- So long after the request began. -/
  | after (wait : Duration)
  /-- When the ledger receives the call with this number; before the request for zero. -/
  | onCall (number : Nat)
deriving DecidableEq, Repr

/-- When that is for a request that began at `start`, as far as the ledger can tell. -/
def Interruption.time (i : Interruption) (start : Time) (ledger : ScriptedLedger) :
    Option Time :=
  match i with
  | never => none
  | after wait => some (start + wait)
  | onCall 0 => some start
  | onCall (n + 1) => (ledger.received[n]?).map Call.time

/-- What became of a transfer, and of the question for its receipt if that was asked. -/
structure Sent where
  frozen : Frozen
  submission : Except Error Submission
  receipt : Option (Except Error Receipt)

namespace Session

/-- The session with an empty record of calls. -/
def cleared (s : Session) : Session :=
  { s with scene := { s.scene with world := { s.scene.world with received := [] } } }

/-- The session with the client's network changed. -/
def withNetwork (s : Session) (network : Network) : Session :=
  { s with client := { s.client with network := network } }

/-- The session some time later. -/
def later (s : Session) (wait : Duration) : Session :=
  { s with scene := { s.scene with now := s.scene.now + wait } }

/-- The session after a request. -/
def after {α : Type} (s : Session) (run : Run ScriptedLedger α) : Session :=
  ⟨s.client.after run, run.scene⟩

/-- Carries out a request. -/
def ask {α : Type} (s : Session) (exec : Executable α)
    (options : ExecuteOptions ScriptedLedger) : Except Error α × Session :=
  let run := s.client.execute ScriptedLedger.transport exec options s.scene
  (run.result, s.after run)

/-- Freezes a draft and adds signatures. -/
def freeze (s : Session) (draft : Draft) (start : Timestamp) (keys : List PrivateKey) :
    Except Error Frozen × Session :=
  let (result, client) := draft.freezeWith s.client s.scene.now start
  (result.map fun frozen => keys.foldl Frozen.sign frozen, { s with client := client })

/-- Sends a frozen transfer, and asks for the receipt of an accepted one if told to. -/
def send (s : Session) (frozen : Frozen) (options : ExecuteOptions ScriptedLedger)
    (askReceipt : Bool) : Sent × Session :=
  let (frozen, run) := frozen.execute s.client ScriptedLedger.transport options s.scene
  let s := s.after run
  match run.result, askReceipt with
  | .ok submission, true =>
    let run := submission.receipt s.client ScriptedLedger.transport options s.scene
    (⟨frozen, .ok submission, some run.result⟩, s.after run)
  | result, _ => (⟨frozen, result, none⟩, s)

end Session

end LedgerClient.Simulation
