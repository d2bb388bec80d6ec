import LedgerClient.Request.Submission
import LedgerClient.Rpc.Envelope
import LedgerClient.Rpc.Metrics
import LedgerClient.Rpc.TransferParams

/-!
# `LedgerClient.Rpc.Service`: a client for each session

The service keeps one client for each session. `setup` makes one,
`reset` forgets it, and `transferCrypto` carries out a transfer with
it and waits for the receipt. A request that names no session belongs
to the session `default`.

Every body gets one answer and adds one to one counter. A request
changes only its own session: a transfer leaves the session's client
with the network as the request left it, and a request that fails
before it calls a node leaves everything as it was.
-/

set_option autoImplicit false

namespace LedgerClient.Rpc

/-- The sessions and the counters. -/
structure Service where
  sessions : Table String Client := []
  metrics : Metrics := {}

/-- The session of a request that names none. -/
def defaultSession : String := "default"

/-- What a method leaves: its result, the service, and the time and state of the outside. -/
structure Handled (σ : Type) where
  result : Except ErrorObject Json
  service : Service
  scene : Scene σ

namespace Service

variable {σ : Type}

/-- A parameter that must be there and be a text. -/
def requiredText (params : List (String × Json)) (name : String) :
    Except ErrorObject String :=
  match (Json.field? name params).bind Json.text? with
  | some s => .ok s
  | none => .error (.invalidParams ("missing or incorrect type for " ++ name))

/-- The texts of a list of texts. -/
def texts? : List Json → Option (List String)
  | [] => some []
  | .text s :: rest => (texts? rest).map (s :: ·)
  | _ :: _ => none

/-- The network that a parameter names, or lists the nodes of; without one, the test
network. -/
def networkFrom : Option Json → Except ErrorObject Network
  | none | some .null => .ok .testnet
  | some (.text name) =>
    match Network.named name with
    | .ok network => .ok network
    | .error _ => .error (.invalidParams "unknown network specification")
  | some (.record fields) =>
    match Json.field? "nodes" fields with
    | some (.list items) =>
      match texts? items with
      | some addresses => lift (Network.ofAddresses addresses)
      | none => .error (.invalidParams "nodes must be a list of strings")
    | _ => .error (.invalidParams "nodes must be a list of strings")
  | some _ => .error (.invalidParams "unknown network specification")

/-- The client that the parameters of `setup` describe. -/
def clientFrom (params : List (String × Json)) : Except ErrorObject Client := do
  let accountId ← lift (AccountId.parse (← requiredText params "operatorAccountId"))
  let key ← lift (PrivateKey.parse (← requiredText params "operatorPrivateKey"))
  let network ← networkFrom (Json.field? "network" params)
  return (Client.ofNetwork network).withOperator accountId key

/-- The service with other sessions, and the gauge set to their number. -/
def withSessions (s : Service) (sessions : Table String Client) : Service :=
  ⟨sessions, { s.metrics with activeSessions := sessions.length }⟩

/-- Stores a client for a session. -/
def setup (s : Service) (params : Json) (session : String) :
    Except ErrorObject (Json × Service) := do
  let client ← clientFrom (← paramsObject params)
  let answer := Json.record [("sessionId", .text session), ("status", .text "success")]
  return (answer, s.withSessions (Table.insert session client s.sessions))

/-- Forgets the client of a session. -/
def reset (s : Service) (session : String) : Json × Service :=
  (.record [("status", .text "reset completed")],
    s.withSessions (Table.erase session s.sessions))

/-- The answer to a transfer that reached consensus. -/
def receiptAnswer (receipt : Receipt) : Json :=
  .record [("status", .text receipt.status.name),
    ("transactionId", .text receipt.transactionId.text)]

/-- Freezes and sends a draft and waits for the receipt. Gives back the client as that leaves
it. -/
def transfer (transport : Transport σ) (client : Client) (draft : Draft) (start : Timestamp)
    (scene : Scene σ) : Except Error Receipt × Client × Scene σ :=
  match draft.freezeWith client scene.now start with
  | (.error e, client) => (.error e, client, scene)
  | (.ok frozen, client) =>
    let (_, sent) := frozen.execute client transport {} scene
    let client := client.after sent
    match sent.result with
    | .error e => (.error e, client, sent.scene)
    | .ok submission =>
      let asked := submission.receipt client transport {} sent.scene
      (asked.result, client.after asked, asked.scene)

/-- Carries out a transfer with the client of a session. -/
def transferCrypto (s : Service) (transport : Transport σ) (params : Json) (session : String)
    (start : Timestamp) (scene : Scene σ) : Handled σ :=
  match Table.get? session s.sessions with
  | none =>
    ⟨.error (.internal ("session " ++ Text.quoted session ++ " has not been set up")), s, scene⟩
  | some client =>
    match (TransferParams.parse params).bind TransferParams.draft with
    | .error e => ⟨.error e, s, scene⟩
    | .ok draft =>
      let (result, client, scene) := transfer transport client draft start scene
      ⟨(lift result).map receiptAnswer,
        { s with sessions := Table.insert session client s.sessions }, scene⟩

/-- Carries out a method. A fresh transaction starts at `start`. -/
def dispatch (s : Service) (transport : Transport σ) (method : Method) (params : Json)
    (session : String) (start : Timestamp) (scene : Scene σ) : Handled σ :=
  match method with
  | .setup =>
    match s.setup params session with
    | .ok (answer, s) => ⟨.ok answer, s, scene⟩
    | .error e => ⟨.error e, s, scene⟩
  | .reset =>
    let (answer, s) := s.reset session
    ⟨.ok answer, s, scene⟩
  | .transferCrypto => s.transferCrypto transport params session start scene

/-- The service with one more body counted. -/
def counted (s : Service) (method : String) (outcome : Outcome) : Service :=
  { s with metrics := s.metrics.record method outcome }

/-- The answer to a request. -/
def handleRequest (s : Service) (transport : Transport σ) (request : Request)
    (start : Timestamp) (scene : Scene σ) : Json × Service × Scene σ :=
  match Method.parse request.method with
  | .error e => (errorAnswer e request.id, s.counted "unknown" .error, scene)
  | .ok method =>
    let session := request.sessionId.getD defaultSession
    let handled := s.dispatch transport method request.params session start scene
    match handled.result with
    | .ok result =>
      (resultAnswer result request.id, handled.service.counted method.name .ok, handled.scene)
    | .error e =>
      (errorAnswer e request.id, handled.service.counted method.name .error, handled.scene)

/-- The answer to a text. -/
def handleText (s : Service) (transport : Transport σ) (body : String) (start : Timestamp)
    (scene : Scene σ) : Json × Service × Scene σ :=
  match Request.parse body with
  | .error rejected =>
    (errorAnswer rejected.error rejected.id, s.counted "unknown" .invalid, scene)
  | .ok request => s.handleRequest transport request start scene

/-- The answer to a body, which need not be text at all. -/
def handle (s : Service) (transport : Transport σ) (body : Bytes) (start : Timestamp)
    (scene : Scene σ) : Json × Service × Scene σ :=
  match Bytes.text? body with
  | none => (errorAnswer .parseError .null, s.counted "unknown" .invalid, scene)
  | some text => s.handleText transport text start scene

end Service

end LedgerClient.Rpc
