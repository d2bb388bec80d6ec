import LedgerClient.Proofs.Rpc.Transfer

/-!
# `LedgerClient.Proofs.Rpc.Handling`: what a body does to a service

What a body asks for does not depend on the service that it is posted
to: it is rejected, or names no method of the service, or calls a method
for a session (`Reading`). What a method does then is one of six things
(`Dispatched`), and only three of these change a session: a client is
installed, or forgotten, or has been used for a transfer.

Everything that is said of bodies and of sequences of bodies is read off
these two, so `handle` and `dispatch` are taken apart here and nowhere
else.
-/

set_option autoImplicit false

namespace LedgerClient.Rpc

/-! ### What a body asks for -/

/-- What a body asks for. -/
inductive Reading where
  /-- It is no request. -/
  | rejected (rejection : Rejection)
  /-- It is a request for something that is no method. -/
  | unknown (id : Json)
  /-- It is a request for a method, in a session. -/
  | call (method : Method) (params : Json) (session : String) (id : Json)

namespace Reading

/-- What a request asks for. -/
def ofRequest (request : Request) : Reading :=
  match Method.parse request.method with
  | .error _ => .unknown request.id
  | .ok method =>
    .call method request.params (request.sessionId.getD defaultSession) request.id

/-- What a body asks for, which need not be text at all. -/
def of (body : Bytes) : Reading :=
  match Bytes.text? body with
  | none => .rejected ⟨.parseError, .null⟩
  | some text =>
    match Request.parse text with
    | .error rejection => .rejected rejection
    | .ok request => ofRequest request

/-- The id that the answer repeats. -/
def id : Reading → Json
  | rejected rejection => rejection.id
  | unknown id => id
  | call _ _ _ id => id

/-- The session that is addressed, if any is. -/
def session? : Reading → Option String
  | rejected _ => none
  | unknown _ => none
  | call _ _ session _ => some session

/-- A method is called in a session. -/
def Calls (reading : Reading) (method : Method) (session : String) : Prop :=
  ∃ params id, reading = .call method params session id

/-- A body that is rejected calls no method. -/
@[simp] theorem rejected_calls (rejection : Rejection) (method : Method) (session : String) :
    ¬(rejected rejection).Calls method session := nofun

/-- Nor does one that names no method. -/
@[simp] theorem unknown_calls (id : Json) (method : Method) (session : String) :
    ¬(unknown id).Calls method session := nofun

/-- A call is of one method, in one session. -/
@[simp] theorem call_calls {method other : Method} {params id : Json} {session at_ : String} :
    (call method params session id).Calls other at_ ↔ method = other ∧ session = at_ := by
  constructor
  · rintro ⟨_, _, h⟩
    cases h
    exact ⟨rfl, rfl⟩
  · rintro ⟨rfl, rfl⟩
    exact ⟨params, id, rfl⟩

end Reading

/-! ### What a service does -/

/-- How a result counts. -/
def Outcome.of : Except ErrorObject Json → Outcome
  | .ok _ => .ok
  | .error _ => .error

namespace Service

variable {σ : Type}

/-- There is one error for every name that is no method's. -/
theorem methodNotFound_of_parse {name : String} {e : ErrorObject}
    (h : Method.parse name = .error e) : e = .methodNotFound := by
  unfold Method.parse at h
  split at h <;> cases h
  rfl

/-- A body that is rejected, or that names no method, is counted, and that is all. One that calls a
method is answered with what that comes to, and counted. -/
theorem handle_eq (s : Service) (transport : Transport σ) (body : Bytes) (start : Timestamp)
    (scene : Scene σ) :
    s.handle transport body start scene =
      match Reading.of body with
      | .rejected rejection =>
        (errorAnswer rejection.error rejection.id, s.counted "unknown" .invalid, scene)
      | .unknown id => (errorAnswer .methodNotFound id, s.counted "unknown" .error, scene)
      | .call method params session id =>
        let handled := s.dispatch transport method params session start scene
        (answerTo id handled.result,
          handled.service.counted method.name (.of handled.result), handled.scene) := by
  unfold handle Reading.of
  -- The reading has the shape of the handler: a text, a request, a method, and each may be missing.
  cases Bytes.text? body with
  | none => rfl
  | some text =>
    show s.handleText transport text start scene = _
    unfold handleText
    cases hparse : Request.parse text with
    | error rejection => simp only [hparse]
    | ok request =>
      simp only [hparse]
      unfold handleRequest Reading.ofRequest
      cases hmethod : Method.parse request.method with
      | error e =>
        rw [methodNotFound_of_parse hmethod]
      | ok method =>
        simp only
        -- The answer and the counter follow the result of the method.
        split
        next hok => rw [hok]; rfl
        next herror => rw [herror]; rfl

/-- What `setup` answers. -/
def setupAnswer (session : String) : Json :=
  .record [("sessionId", .text session), ("status", .text "success")]

/-- What `reset` answers. -/
def resetAnswer : Json :=
  .record [("status", .text "reset completed")]

/-- The error of a session without a client. -/
def noClient (session : String) : ErrorObject :=
  .internal ("session " ++ Text.quoted session ++ " has not been set up")

/-- The client that parameters describe, which may be none at all. -/
def clientOf (params : Json) : Except ErrorObject Client :=
  (paramsObject params).bind clientFrom

/-- The draft that parameters describe. -/
def draftOf (params : Json) : Except ErrorObject Draft :=
  (TransferParams.parse params).bind TransferParams.draft

/-- What a method may come to. A client is installed, or the parameters describe none. The client of
a session is forgotten, whether there was one or not. A transfer finds no client, or the parameters
describe no draft, or it is carried out and leaves the session the client that was used. -/
inductive Dispatched (s : Service) (transport : Transport σ) (params : Json) (session : String)
    (start : Timestamp) (scene : Scene σ) : Method → Handled σ → Prop
  | installed {client : Client} (described : clientOf params = .ok client) :
      Dispatched s transport params session start scene .setup
        ⟨.ok (setupAnswer session), s.withSessions (Table.insert session client s.sessions), scene⟩
  | undescribed {e : ErrorObject} (wrong : clientOf params = .error e) :
      Dispatched s transport params session start scene .setup ⟨.error e, s, scene⟩
  | forgotten : Dispatched s transport params session start scene .reset
      ⟨.ok resetAnswer, s.withSessions (Table.erase session s.sessions), scene⟩
  | missing (none : Table.get? session s.sessions = none) :
      Dispatched s transport params session start scene .transferCrypto
        ⟨.error (noClient session), s, scene⟩
  | undrafted {client : Client} {e : ErrorObject}
      (found : Table.get? session s.sessions = some client)
      (wrong : draftOf params = .error e) :
      Dispatched s transport params session start scene .transferCrypto ⟨.error e, s, scene⟩
  | transferred {client : Client} {draft : Draft}
      (found : Table.get? session s.sessions = some client) (drafted : draftOf params = .ok draft) :
      Dispatched s transport params session start scene .transferCrypto
        ⟨(lift (transfer transport client draft start scene).1).map receiptAnswer,
          ⟨Table.insert session (transfer transport client draft start scene).2.1 s.sessions,
            s.metrics⟩,
          (transfer transport client draft start scene).2.2⟩

/-- What `setup` comes to in terms of the client that is described. -/
theorem setup_eq (s : Service) (params : Json) (session : String) :
    s.setup params session = (clientOf params).map fun client =>
      (setupAnswer session, s.withSessions (Table.insert session client s.sessions)) := by
  unfold setup clientOf
  cases paramsObject params with
  | error e => rfl
  | ok fields =>
    show (clientFrom fields >>= _) = ((clientFrom fields).map _)
    cases clientFrom fields <;> rfl

/-- A method comes to one of these. -/
theorem dispatched (s : Service) (transport : Transport σ) (method : Method) (params : Json)
    (session : String) (start : Timestamp) (scene : Scene σ) :
    Dispatched s transport params session start scene method
      (s.dispatch transport method params session start scene) := by
  cases method with
  | setup =>
    unfold dispatch
    simp only [setup_eq]
    -- A setup that is described is installed, and this is all that can go wrong with it.
    cases h : clientOf params with
    | error e => exact .undescribed h
    | ok client => exact .installed h
  | reset => exact .forgotten
  | transferCrypto =>
    show Dispatched s transport params session start scene .transferCrypto
      (s.transferCrypto transport params session start scene)
    unfold transferCrypto
    cases hfound : Table.get? session s.sessions with
    | none => exact .missing hfound
    | some client =>
      simp only
      -- What is left is whether the parameters make a draft.
      split
      next hwrong => exact .undrafted hfound hwrong
      next hdrafted => exact .transferred hfound hdrafted

/-! ### What a method depends on -/

section
variable {s t : Service} {session : String} (transport : Transport σ) (method : Method)
  (params : Json) (start : Timestamp) (scene : Scene σ)

/-- A method looks at no client but that of its session, and at no counter. -/
theorem dispatch_congr (h : Table.get? session s.sessions = Table.get? session t.sessions) :
    let left := s.dispatch transport method params session start scene
    let right := t.dispatch transport method params session start scene
    left.result = right.result ∧
      Table.get? session left.service.sessions = Table.get? session right.service.sessions ∧
      left.scene = right.scene := by
  cases method with
  | setup =>
    unfold dispatch
    simp only [setup_eq]
    -- The table is written to at the session, so the other entries do not matter.
    cases clientOf params with
    | error e => exact ⟨rfl, h, rfl⟩
    | ok client =>
      refine ⟨rfl, ?_, rfl⟩
      show Table.get? session (Table.insert _ _ _) = Table.get? session (Table.insert _ _ _)
      rw [Table.get?_insert_self, Table.get?_insert_self]
  | reset =>
    refine ⟨rfl, ?_, rfl⟩
    show Table.get? session (Table.erase _ _) = Table.get? session (Table.erase _ _)
    rw [Table.get?_erase_self, Table.get?_erase_self]
  | transferCrypto =>
    intro left right
    simp only [left, right, dispatch, transferCrypto, h]
    -- Both services find the same client, so they part company nowhere.
    cases hfound : Table.get? session t.sessions with
    | none => exact ⟨rfl, h, rfl⟩
    | some client =>
      simp only
      split
      · exact ⟨rfl, h, rfl⟩
      · exact ⟨rfl, by rw [Table.get?_insert_self, Table.get?_insert_self], rfl⟩

/-- What it makes of the sessions depends on the sessions alone. -/
theorem sessions_dispatch_congr (h : s.sessions = t.sessions) :
    (s.dispatch transport method params session start scene).service.sessions =
      (t.dispatch transport method params session start scene).service.sessions := by
  cases method with
  | setup =>
    unfold dispatch
    simp only [setup_eq]
    cases clientOf params with
    | error e => exact h
    | ok client => exact congrArg (Table.insert session client) h
  | reset => exact congrArg (Table.erase session) h
  | transferCrypto =>
    simp only [dispatch, transferCrypto, h]
    split
    · exact h
    · split
      · exact h
      · rfl

end

end Service

end LedgerClient.Rpc
