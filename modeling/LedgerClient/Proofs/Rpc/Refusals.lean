import LedgerClient.Proofs.Rpc.Faults
import LedgerClient.Proofs.Rpc.Serving

/-!
# `LedgerClient.Proofs.Rpc.Refusals`: a request that is refused changes nothing

Some errors say that the request is at fault: it is no request, there is
no such method, its parameters are wrong. Others say that the session
has no client, that the ledger refused, or that an answer could not be
read. The codes tell them apart, but a code alone does not say when an
error came up, and a transfer goes through freezing and through two
requests to nodes, which have errors of their own.

* `Service.refusal?` is the error that is found before anything is done,
  as a function of what the body asks for and of the session's client.
* A body with such an error is answered with it, by whatever transport
  (`handle_of_refusal`). A body without one is never answered with the
  code of a refusal (`acted`), since a transfer that was frozen can only
  fail with an error of the ledger or of an answer (`transfer_error`).
* `refusals_change_nothing` is what follows: from the code of the answer
  to the state of the service, and of everything outside.
-/

set_option autoImplicit false

namespace LedgerClient

variable {σ : Type}

/-- A transport that keeps a log of the calls. -/
def Transport.logged (transport : Transport σ) : Transport (σ × List Call) where
  call world call :=
    let (reply, left) := transport.call world.1 call
    (reply, (left, world.2 ++ [call]))
  timer := transport.timer

namespace Rpc

/-! ### The codes of errors -/

/-- The code of the error that an answer carries, if it carries one. -/
def errorCode? : Json → Option Int
  | .record fields =>
    match Json.field? "error" fields with
    | some (.record error) =>
      match Json.field? "code" error with
      | some (.integer code) => some code
      | _ => none
    | _ => none
  | _ => none

/-- The code of an error is found in the answer that carries it, whether it has data or not. -/
theorem errorCode?_errorAnswer (e : ErrorObject) (id : Json) :
    errorCode? (errorAnswer e id) = some e.code := by
  obtain ⟨code, message, data⟩ := e
  cases data <;> rfl

/-- The codes that lay an error on the request: it is no JSON text, it is no request, there is no
such method, or the parameters are wrong. -/
def refusalCodes : List Int := [-32700, -32600, -32601, -32602]

/-- A body is rejected with the code of a refusal. -/
theorem Reading.code_of_rejected {body : Bytes} {rejection : Rejection}
    (h : of body = .rejected rejection) : rejection.error.code ∈ refusalCodes := by
  have hunreadable : ErrorObject.parseError.code ∈ refusalCodes := by decide
  have hinvalid : ErrorObject.invalidRequest.code ∈ refusalCodes := by decide
  unfold of at h
  -- The reading follows the text, the request and the method, and each of them turns down with one
  -- of two errors.
  split at h
  · cases h
    exact hunreadable
  · split at h
    next hparse =>
      cases h
      unfold Request.parse at hparse
      split at hparse
      · cases hparse
        exact hunreadable
      · split at hparse <;> cases hparse <;> exact hinvalid
      · cases hparse
        exact hinvalid
    next request _ =>
      unfold ofRequest at h
      split at h <;> cases h

namespace Service

/-! ### What is found before anything is done -/

/-- The error with which a body is turned down before anything is done for it, if it is. -/
def refusal? (s : Service) : Reading → Option ErrorObject
  | .rejected rejection => some rejection.error
  | .unknown _ => some .methodNotFound
  | .call .setup params _ _ =>
    match clientOf params with
    | .error e => some e
    | .ok _ => none
  | .call .reset _ _ _ => none
  | .call .transferCrypto params session _ =>
    match Table.get? session s.sessions, draftOf params with
    | none, _ => some (noClient session)
    | some _, .error e => some e
    | some _, .ok _ => none

section
variable {s : Service} {body : Bytes} {e : ErrorObject}

/-- A method with such an error does nothing. One without has a result, or is a transfer for which
there are a client and a draft. -/
theorem Dispatched.refused_or_acted {method : Method} {params : Json} {session : String}
    {transport : Transport σ} {start : Timestamp} {scene : Scene σ} {handled : Handled σ}
    (h : Dispatched s transport params session start scene method handled) (id : Json) :
    (∃ e, s.refusal? (.call method params session id) = some e ∧
        handled = ⟨.error e, s, scene⟩) ∨
      s.refusal? (.call method params session id) = none ∧
        ((∃ value, handled.result = .ok value) ∨
          ∃ client draft, Table.get? session s.sessions = some client ∧
            draftOf params = .ok draft ∧ handled.result =
              (lift (transfer transport client draft start scene).1).map receiptAnswer) := by
  -- The six ways a method goes: three are refusals, with the service as it was, and three act.
  cases h with
  | installed described => exact .inr ⟨by simp only [refusal?, described], .inl ⟨_, rfl⟩⟩
  | undescribed wrong => exact .inl ⟨_, by simp only [refusal?, wrong], rfl⟩
  | forgotten => exact .inr ⟨rfl, .inl ⟨_, rfl⟩⟩
  | missing none => exact .inl ⟨_, by simp only [refusal?, none], rfl⟩
  | undrafted found wrong => exact .inl ⟨_, by simp only [refusal?, found, wrong], rfl⟩
  | transferred found drafted =>
    exact .inr ⟨by simp only [refusal?, found, drafted], .inr ⟨_, _, found, drafted, rfl⟩⟩

/-- A method with such an error does nothing. -/
theorem dispatch_of_refusal {method : Method} {params : Json} {session : String} {id : Json}
    (h : s.refusal? (.call method params session id) = some e) (transport : Transport σ)
    (start : Timestamp) (scene : Scene σ) :
    s.dispatch transport method params session start scene = ⟨.error e, s, scene⟩ := by
  rcases (s.dispatched transport method params session start scene).refused_or_acted id with
    ⟨e', he', hhandled⟩ | ⟨hnone, -⟩
  · rw [h] at he'
    cases he'
    exact hhandled
  · rw [h] at hnone
    cases hnone

/-- A body with such an error is answered with it and counted. The outside is not looked at. -/
theorem handle_of_refusal (h : s.refusal? (Reading.of body) = some e) :
    ∃ name outcome, ∀ {World : Type} (transport : Transport World) (start : Timestamp)
      (scene : Scene World), s.handle transport body start scene =
        (errorAnswer e (Reading.of body).id, s.counted name outcome, scene) := by
  -- The reading fixes what is counted: a method by its name, and everything else as unknown.
  cases hreading : Reading.of body with
  | rejected rejection =>
    rw [hreading] at h
    cases h
    refine ⟨"unknown", .invalid, fun transport start scene => ?_⟩
    rw [handle_eq, hreading]
    rfl
  | unknown id =>
    rw [hreading] at h
    cases h
    refine ⟨"unknown", .error, fun transport start scene => ?_⟩
    rw [handle_eq, hreading]
    rfl
  | call method params session id =>
    rw [hreading] at h
    refine ⟨method.name, .error, fun transport start scene => ?_⟩
    rw [handle_eq, hreading]
    simp only [dispatch_of_refusal h transport start scene]
    rfl

end

/-! ### What can still fail -/

/-- Once a draft is there, a transfer with a client that has an operator and the default settings
fails only where the network or an answer does. -/
theorem transfer_error {client : Client} (hclient : Configured client) {draft : Draft}
    (hnodes : draft.nodeIds = none) (hid : draft.transactionId = none) (transport : Transport σ)
    (start : Timestamp) (scene : Scene σ) :
    FailsOnly (fun e => e.isLedgerError = true ∨ e = .codec .undecodable)
      (transfer transport client draft start scene).1 := by
  obtain ⟨⟨op, hop⟩, hconfig⟩ := hclient
  -- Freezing does not fail, since there is an operator to pay and there are nodes to choose from.
  obtain ⟨frozen, network, hfreeze, hsent⟩ :=
    Draft.freezeWith_sent hnodes hid hop hconfig transport start scene
  intro e he
  unfold transfer at he
  simp only [hfreeze] at he
  generalize (frozen.execute { client with network := network } transport {} scene).2 = sent
    at hsent he
  cases hresult : sent.result with
  | error e' =>
    simp only [hresult] at he
    cases he
    exact (hsent.error e hresult).imp_right And.left
  | ok submission =>
    simp only [hresult] at he
    -- The node that accepted it is known, so it can be asked for the receipt.
    obtain ⟨-, hknown, -⟩ := hsent.ok submission hresult
    have hfollowed := Submission.receipt_followed
      (Client.after { client with network := network } sent) hknown hconfig transport sent.scene
    exact (hfollowed.error e he).imp_right And.left

/-- The codes of such errors are no refusals. -/
theorem code_of_transfer_error {e : Error}
    (h : e.isLedgerError = true ∨ e = .codec .undecodable) :
    (ErrorObject.ofError e).code ∉ refusalCodes := by
  rcases h with hledger | rfl
  · rw [ErrorObject.ofError_of_isLedgerError hledger]
    show (-32001 : Int) ∉ refusalCodes
    decide
  · decide

variable {s : Service} {a : Arrival}

/-- A body that is not turned down at once does not get the code of a refusal later. -/
theorem acted (hs : AllConfigured s.sessions) (h : s.refusal? (Reading.of a.body) = none)
    {code : Int} (hcode : errorCode? (s.answer a) = some code) : code ∉ refusalCodes := by
  unfold answer at hcode
  rw [handle_eq] at hcode
  -- A reading that is no call is refused, which the hypothesis excludes.
  cases hreading : Reading.of a.body with
  | rejected rejection =>
    rw [hreading] at h
    cases h
  | unknown id =>
    rw [hreading] at h
    cases h
  | call method params session id =>
    rw [hreading] at h hcode
    simp only at hcode
    rcases (s.dispatched a.transport method params session a.start a.scene).refused_or_acted id with
      ⟨e, he, -⟩ | ⟨-, ⟨value, hvalue⟩ | ⟨client, draft, found, drafted, hresult⟩⟩
    · -- A refusal is excluded as well, and a result has no code.
      rw [h] at he
      cases he
    · rw [hvalue] at hcode
      cases hcode
    · -- What is left is a transfer that goes through freezing and to the nodes.
      obtain ⟨asked, -, hdrafted⟩ := TransferParams.draft_eq_ok drafted
      have hfails := transfer_error (hs session client found) hdrafted.nodeIds
        hdrafted.transactionId a.transport a.start a.scene
      rw [hresult] at hcode
      cases hended : (transfer a.transport client draft a.start a.scene).1 with
      | ok receipt =>
        rw [hended] at hcode
        cases hcode
      | error e =>
        rw [hended] at hcode
        change errorCode? (errorAnswer (.ofError e) id) = some code at hcode
        rw [errorCode?_errorAnswer] at hcode
        cases hcode
        exact code_of_transfer_error (hfails e hended)

/-! ### Refusals -/

/-- A body is refused: the answer has the code of a refusal, or a transfer is requested in a session
that has no client. -/
def Refuses (s : Service) (a : Arrival) : Prop :=
  (∃ code ∈ refusalCodes, errorCode? (s.answer a) = some code) ∨
    ∃ session, (Reading.of a.body).Calls .transferCrypto session ∧
      Table.get? session s.sessions = none

/-- The error with which a body is turned down has the code of a refusal, unless it is that of a
session without a client. -/
theorem code_of_refusal {body : Bytes} {e : ErrorObject}
    (h : s.refusal? (Reading.of body) = some e) :
    e.code ∈ refusalCodes ∨ ∃ session, (Reading.of body).Calls .transferCrypto session ∧
      Table.get? session s.sessions = none := by
  have hparams {e : ErrorObject} (hcode : e.OfParams) : e.code ∈ refusalCodes := by
    rw [hcode]
    decide
  cases hreading : Reading.of body with
  | rejected rejection =>
    rw [hreading] at h
    cases h
    exact .inl (Reading.code_of_rejected hreading)
  | unknown id =>
    rw [hreading] at h
    cases h
    exact .inl (by decide)
  | call method params session id =>
    rw [hreading] at h
    -- A setup can fail in what it describes, and a transfer in its draft or for want of a client.
    cases method with
    | setup =>
      unfold refusal? at h
      simp only at h
      split at h
      next wrong =>
        cases h
        rcases clientOf_fails params e wrong with hcode | rfl
        · exact .inl (hparams hcode)
        · exact .inl (by decide)
      · cases h
    | reset => cases h
    | transferCrypto =>
      unfold refusal? at h
      simp only at h
      split at h
      next hnone => exact .inr ⟨session, ⟨params, id, rfl⟩, hnone⟩
      next wrong =>
        cases h
        exact .inl (hparams (draftOf_fails params e wrong))
      · cases h

/-- A body is refused exactly if it is turned down before anything is done for it. -/
theorem refuses_iff (hs : AllConfigured s.sessions) :
    s.Refuses a ↔ ∃ e, s.refusal? (Reading.of a.body) = some e := by
  constructor
  · -- An answer with a code of refusal cannot come from a body that is acted on.
    rintro (⟨code, hcode, hanswer⟩ | ⟨session, ⟨params, id, hreading⟩, hnone⟩)
    · cases hrefusal : s.refusal? (Reading.of a.body) with
      | some e => exact ⟨e, rfl⟩
      | none => exact absurd hcode (acted hs hrefusal hanswer)
    · exact ⟨noClient session, by simp only [hreading, refusal?, hnone]⟩
  · rintro ⟨e, hrefusal⟩
    rcases code_of_refusal hrefusal with hcode | hmissing
    · obtain ⟨name, outcome, hhandle⟩ := handle_of_refusal hrefusal
      have hanswer : errorCode? (s.answer a) = some e.code := by
        rw [answer, hhandle]
        exact errorCode?_errorAnswer e _
      exact .inl ⟨_, hcode, hanswer⟩
    · exact .inr hmissing

/-- A body that changes nothing, here or outside. -/
structure Untouched (s : Service) (a : Arrival) : Prop where
  /-- Every session has the client that it had, with its network and the records of its nodes. -/
  sessions : (s.after a).sessions = s.sessions
  gauge : (s.after a).metrics.activeSessions = s.metrics.activeSessions
  /-- No node is called. -/
  silent : ∀ log, (s.handle a.transport.logged a.body a.start
    ⟨a.scene.now, (a.scene.world, log)⟩).2.2 = ⟨a.scene.now, (a.scene.world, log)⟩
  /-- Nothing outside matters: with any other nodes and at any other time it is the same. -/
  alike : ∀ {World : Type} (transport : Transport World) (start : Timestamp) (scene : Scene World),
    s.handle transport a.body start scene = (s.answer a, s.after a, scene)
  /-- What comes later is handled as if the body had never come. -/
  history : ∀ later, (s.after a).history later = s.history later
  served : ∀ later, ((s.after a).served later).sessions = (s.served later).sessions

/-- A body that is turned down at once changes nothing. -/
theorem untouched_of_refusal {e : ErrorObject} (h : s.refusal? (Reading.of a.body) = some e) :
    s.Untouched a := by
  obtain ⟨name, outcome, hhandle⟩ := handle_of_refusal h
  have hafter : s.after a = s.counted name outcome := by rw [Service.after, hhandle]
  have hsessions : (s.after a).sessions = s.sessions := by rw [hafter, counted]
  refine ⟨hsessions, by rw [hafter]; rfl, fun log => by rw [hhandle], ?_, fun later =>
    history_congr hsessions later, fun later => sessions_served_congr hsessions later⟩
  intro World transport start scene
  rw [hhandle, answer, hhandle, hafter]

end Service

open Service

/-- Whatever a service has been asked before, a body that it refuses changes nothing. Every setup
without a result is refused, so the client that the session had stays. And if something is wrong
with the parameters of a transfer, be it the last entry, the memo or the fee, then that is what is
answered, and the body is refused, so the entries before it are not submitted. -/
theorem refusals_change_nothing {s : Service} (hs : s.Reached) (a : Arrival) :
    (s.Refuses a → s.Untouched a) ∧
      (∀ session, (Reading.of a.body).Calls .setup session → hasResult (s.answer a) = false →
        s.Refuses a) ∧
      ∀ params session id client p e,
        Reading.of a.body = .call .transferCrypto params session id →
        Table.get? session s.sessions = some client → TransferParams.parse params = .ok p →
        p.Wrong e → s.answer a = errorAnswer e id ∧ s.Refuses a := by
  have hiff : s.Refuses a ↔ ∃ e, s.refusal? (Reading.of a.body) = some e :=
    refuses_iff hs.configured
  refine ⟨fun hrefuses => ?_, ?_, ?_⟩
  · obtain ⟨e, hrefusal⟩ := hiff.1 hrefuses
    exact untouched_of_refusal hrefusal
  · rintro session ⟨params, id, hreading⟩ hresult
    rw [hiff, hreading, refusal?]
    cases hdescribed : clientOf params with
    | error e => exact ⟨e, rfl⟩
    | ok client =>
      -- A client that is described is installed, and that is a result.
      rw [answer, handle_eq, hreading] at hresult
      simp only [hasResult_answerTo, dispatch, setup_eq, hdescribed] at hresult
      cases hresult
  · intro params session id client p e hreading hfound hparse hwrong
    -- A wrong entry is the error of the draft, and the draft is looked at before anything is sent.
    have hrefusal : s.refusal? (Reading.of a.body) = some e := by
      have hdraft : draftOf params = .error e := by
        rw [draftOf, hparse]
        exact TransferParams.draft_of_wrong hwrong
      simp only [hreading, refusal?, hfound, hdraft]
    obtain ⟨name, outcome, hhandle⟩ := handle_of_refusal hrefusal
    refine ⟨?_, hiff.2 ⟨e, hrefusal⟩⟩
    rw [answer, hhandle, hreading]
    rfl

open Simulation (ScriptedLedger)

/-- A setup without an operator. -/
def unfounded : Arrival where
  World := _
  transport := ScriptedLedger.transport
  scene := ⟨0, {}⟩
  start := ⟨1700000000, 0⟩
  body := Bytes.ofText "\x7b\"jsonrpc\":\"2.0\",\"id\":3,\"method\":\"setup\"\x7d"

/-- Where a session has been set up before, it is answered with the code of wrong parameters and
changes nothing. -/
theorem refusals_change_nothing_unfounded :
    errorCode? (rentalService.val.answer unfounded) = some (-32602) ∧
      rentalService.val.Untouched unfounded := by
  have hcode : errorCode? (rentalService.val.answer unfounded) = some (-32602) := by
    decide +kernel
  refine ⟨hcode, (refusals_change_nothing rentalService.property unfounded).1 ?_⟩
  exact .inl ⟨-32602, by decide, hcode⟩

end Rpc

end LedgerClient
