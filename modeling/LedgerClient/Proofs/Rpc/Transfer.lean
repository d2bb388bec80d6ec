import LedgerClient.Proofs.Request.Receipt
import LedgerClient.Proofs.Rpc.Bodies
import LedgerClient.Proofs.Rpc.Sessions
import LedgerClient.Simulation.ScriptedLedger

/-!
# `LedgerClient.Proofs.Rpc.Transfer`: a transfer from its request to its answer

Between the bytes of a request and those of its answer stand the
parameters, the lists, the bodies, the signatures, two requests to nodes
and the errors of both. `transferred_as_asked` is what they come to
together, whatever the outside does:

* every call that submits carries the body that the parameters ask for,
  under one name, signed by the session's operator alone
  (`Conversation.Carries`);
* there is a result exactly if a node accepted the transaction and a
  receipt reports success, and otherwise, once something was submitted,
  an error of the ledger, unless an answer could not be read
  (`Conversation.Decides`).

The calls are those that the two requests record. That the outside has
seen them in this order and no others is part of the statement: it is
left as it is after exactly these calls.
-/

set_option autoImplicit false

namespace LedgerClient

variable {σ : Type}

/-- No calls are always traced. -/
theorem Transport.traced_nil (transport : Transport σ) (budget : Budget) (world : σ) :
    transport.Traced budget world [] := by
  rintro (_ | _) x ys heq <;> cases heq

/-- Calls may go on from where others leave the outside. -/
theorem Transport.Traced.append {transport : Transport σ} {budget : Budget} {world : σ}
    {xs ys : List Exchange} (hxs : transport.Traced budget world xs)
    (hys : transport.Traced budget (transport.after world xs) ys) :
    transport.Traced budget world (xs ++ ys) := by
  intro before x behind heq
  -- The call looked at is among the first ones or among the later ones, by where the list is split.
  rcases List.append_eq_append_iff.1 heq with ⟨zs, rfl, h⟩ | ⟨zs, rfl, h⟩
  · rw [Transport.after_append]
    exact hys zs x behind h
  · cases zs with
    | nil =>
      rw [List.append_nil] at hys
      exact hys [] x behind h.symm
    | cons z zs =>
      cases h
      exact hxs before x zs rfl

namespace Rpc

/-- An error that lays it on the network has the code of the ledger. -/
theorem ErrorObject.ofError_of_isLedgerError {e : Error} (h : e.isLedgerError = true) :
    ofError e = ledger e := by
  unfold ofError
  split
  · cases h
  · cases h
  · rw [if_pos h]

/-! ### The calls of a transfer -/

/-- The calls of a transfer: those that submit it, and then those that ask for its receipt. -/
structure Conversation where
  submissions : List Exchange := []
  questions : List Exchange := []

namespace Conversation

/-- All calls, in order. -/
def exchanges (c : Conversation) : List Exchange :=
  c.submissions ++ c.questions

/-- The calls that are made with a draft. -/
def withDraft (transport : Transport σ) (client : Client) (draft : Draft) (start : Timestamp)
    (scene : Scene σ) : Conversation :=
  match draft.freezeWith client scene.now start with
  | (.error _, _) => {}
  | (.ok frozen, client) =>
    let sent := (frozen.execute client transport {} scene).2
    match sent.result with
    | .error _ => { submissions := sent.exchanges }
    | .ok submission =>
      { submissions := sent.exchanges
        questions :=
          (submission.receipt (client.after sent) transport {} sent.scene).exchanges }

/-- The calls that are made for parameters. -/
def about (transport : Transport σ) (client : Client) (params : Json) (start : Timestamp)
    (scene : Scene σ) : Conversation :=
  match (TransferParams.parse params).bind TransferParams.draft with
  | .error _ => {}
  | .ok draft => withDraft transport client draft start scene

/-- What the calls carry: there are some, they submit what is asked for, and what follows them are
questions for the receipt of that transaction to a node that accepted it. -/
structure Carries (c : Conversation) (op : Operator) (asked : Asked) (id : TransactionId) :
    Prop where
  started : c.submissions ≠ []
  submits : ∀ x ∈ c.submissions, Submits op asked id x.call
  asks : ∀ y ∈ c.questions,
    Wire.Request.codec.decode? y.call.request = some (.query (.transactionReceipt id.toWire)) ∧
      ∃ x ∈ c.submissions, x.Accepted ∧ x.call.node.accountId = y.call.node.accountId

/-- How the calls conclude a transfer: a report of success does, and nothing else but an error that
lays it on the network, unless an answer could not be read. -/
structure Concludes (c : Conversation) (id : TransactionId) (result : Except Error Receipt) :
    Prop where
  reported : ∀ y ∈ c.questions, y.Reports .success → result = .ok ⟨.success, id⟩
  ok : ∀ r, result = .ok r → r = ⟨.success, id⟩ ∧ (∃ x ∈ c.submissions, x.Accepted) ∧
    ∃ y ∈ c.questions, y.Reports .success
  error : ∀ e, result = .error e →
    e.isLedgerError = true ∨ (e = .codec .undecodable ∧ ∃ x ∈ c.exchanges, x.Unreadable)

/-- How the calls decide the answer of the service. -/
structure Decides (c : Conversation) (id : TransactionId) (result : Except ErrorObject Json) :
    Prop where
  /-- There is a result exactly if some node accepted the transaction and some receipt reports
  success. -/
  ok_iff : (∃ answer, result = .ok answer) ↔
    (∃ x ∈ c.submissions, x.Accepted) ∧ ∃ y ∈ c.questions, y.Reports .success
  /-- It says so, and names the transaction. -/
  answer : ∀ answer, result = .ok answer →
    answer = .record [("status", .text "SUCCESS"), ("transactionId", .text id.text)]
  /-- Once something was submitted, everything else is an error of the ledger, unless an answer
  could not be read. -/
  error : ∀ e, result = .error e → c.submissions ≠ [] →
    (e.code = -32001 ∧ ∃ cause : Error, cause.isLedgerError = true ∧ e = .ledger cause) ∨
      (e.code = -32603 ∧ ∃ x ∈ c.exchanges, x.Unreadable)

/-- A conclusion decides the answer. -/
theorem Concludes.decides {c : Conversation} {id : TransactionId} {result : Except Error Receipt}
    (h : c.Concludes id result) : c.Decides id ((lift result).map Service.receiptAnswer) := by
  refine ⟨⟨?_, ?_⟩, ?_, ?_⟩
  · -- The result is a success exactly if the receipt that was reported is.
    rintro ⟨answer, hanswer⟩
    obtain ⟨r, hr, -⟩ := map_eq_ok.1 hanswer
    exact (h.ok r (mapError_eq_ok.1 hr)).2
  · rintro ⟨-, y, hy, hreports⟩
    rw [h.reported y hy hreports]
    exact ⟨_, rfl⟩
  · intro answer hanswer
    obtain ⟨r, hr, rfl⟩ := map_eq_ok.1 hanswer
    rw [(h.ok r (mapError_eq_ok.1 hr)).1]
    rfl
  · intro e he _
    cases result with
    | ok r => cases he
    -- What fails is the ledger or an answer that cannot be read, and the code tells these two
    -- apart.
    | error cause =>
      cases he
      rcases h.error cause rfl with hledger | ⟨rfl, hunreadable⟩
      · rw [ErrorObject.ofError_of_isLedgerError hledger]
        exact .inl ⟨rfl, cause, hledger, rfl⟩
      · exact .inr ⟨rfl, hunreadable⟩

section
variable {d : Draft} {op : Operator} {id : TransactionId} {transport : Transport σ}
  {start : Scene σ} {sent : Run σ Submission} {e : Error} {submission : Submission}
  {asked : Run σ LedgerClient.Receipt}

/-- A submission that fails is the end. -/
theorem concludes_of_error (hsent : d.Sent op id transport start sent)
    (he : sent.result = .error e) :
    Concludes { submissions := sent.exchanges } id (.error e) := by
  refine ⟨nofun, nofun, fun e' he' => ?_⟩
  cases he'
  rw [exchanges, List.append_nil]
  exact hsent.error e he

/-- A submission that succeeds was accepted, and the question for the receipt is the end. -/
theorem concludes_of_followed (hsent : d.Sent op id transport start sent)
    (hs : sent.result = .ok submission) (hasked : submission.Followed transport sent.scene asked) :
    Concludes ⟨sent.exchanges, asked.exchanges⟩ id asked.result := by
  obtain ⟨rfl, -, x, hx, haccepted, -⟩ := hsent.ok submission hs
  refine ⟨hasked.reported, fun r hr => ?_, fun e he => ?_⟩
  · obtain ⟨hreceipt, hreports⟩ := hasked.ok r hr
    exact ⟨hreceipt, ⟨x, hx, haccepted⟩, hreports⟩
  · rcases hasked.error e he with hledger | ⟨hcodec, y, hy, hunreadable⟩
    · exact .inl hledger
    · exact .inr ⟨hcodec, y, List.mem_append_right _ hy, hunreadable⟩

/-- What follows a submission are questions to a node that accepted it. -/
theorem asks_of_followed (hsent : d.Sent op id transport start sent)
    (hs : sent.result = .ok submission) (hasked : submission.Followed transport sent.scene asked) :
    ∀ y ∈ asked.exchanges,
      Wire.Request.codec.decode? y.call.request = some (.query (.transactionReceipt id.toWire)) ∧
        ∃ x ∈ sent.exchanges, x.Accepted ∧ x.call.node.accountId = y.call.node.accountId := by
  obtain ⟨rfl, -, x, hx, haccepted, hcalled⟩ := hsent.ok submission hs
  intro y hy
  obtain ⟨hnode, hrequest⟩ := hasked.asks y hy
  rw [hrequest, hnode]
  exact ⟨Wire.Request.codec_lawful.decode?_encode
    ⟨⟨trivial, trivial, trivial⟩, trivial, trivial⟩, x, hx, haccepted, hcalled⟩

end

end Conversation

/-- What comes of a transfer with a draft of what is asked for. -/
theorem Service.transfer_concludes {client : Client} {op : Operator} {asked : Asked}
    {draft : Draft} (hop : client.operator = some op) (hconfig : client.config = .default)
    (hdrafted : asked.Drafted draft) (hlimit : asked.additions.length ≤ Http.bodyLimit)
    (transport : Transport σ) (start : Timestamp) (scene : Scene σ) :
    let ended := Service.transfer transport client draft start scene
    let c := Conversation.withDraft transport client draft start scene
    c.Carries op asked ⟨op.accountId, start⟩ ∧ c.Concludes ⟨op.accountId, start⟩ ended.1 ∧
      transport.Traced .usual scene.world c.exchanges ∧
      ended.2.2.world = transport.after scene.world c.exchanges := by
  intro ended c
  -- The draft freezes for the operator at the start, so every call carries what was asked for.
  obtain ⟨frozen, network, hfreeze, hsent⟩ := Draft.freezeWith_sent hdrafted.nodeIds
    hdrafted.transactionId hop hconfig transport start scene
  have hended : ended = Service.transfer transport client draft start scene := rfl
  have hc : c = Conversation.withDraft transport client draft start scene := rfl
  simp only [Service.transfer, Conversation.withDraft, hfreeze] at hended hc
  clear_value ended c
  generalize (frozen.execute { client with network := network } transport {} scene).2 = sent
    at hsent hended hc
  have hsubmits : ∀ x ∈ sent.exchanges, Submits op asked ⟨op.accountId, start⟩ x.call :=
    fun x hx => hdrafted.submits hlimit (hsent.sends x hx)
  -- Without a node that accepted there are no questions, and the conversation is what was
  -- submitted.
  cases hresult : sent.result with
  | error e =>
    rw [hresult] at hended hc
    subst hended hc
    refine ⟨⟨hsent.called, hsubmits, List.forall_mem_nil _⟩,
      Conversation.concludes_of_error hsent hresult, ?_⟩
    rw [Conversation.exchanges, List.append_nil]
    exact ⟨hsent.traced, hsent.world⟩
  | ok submission =>
    rw [hresult] at hended hc
    subst hended hc
    -- The questions follow the submissions, and they start from where these left the outside.
    obtain ⟨-, hknown, -⟩ := hsent.ok submission hresult
    have hfollowed := Submission.receipt_followed
      (Client.after { client with network := network } sent) hknown hconfig transport sent.scene
    refine ⟨⟨hsent.called, hsubmits, Conversation.asks_of_followed hsent hresult hfollowed⟩,
      Conversation.concludes_of_followed hsent hresult hfollowed, hsent.traced.append ?_, ?_⟩
    · rw [← hsent.world]
      exact hfollowed.traced
    · rw [Conversation.exchanges, Transport.after_append, ← hsent.world]
      exact hfollowed.world

/-- What a response says: the result, or the error. -/
def answerTo (id : Json) : Except ErrorObject Json → Json
  | .ok result => resultAnswer result id
  | .error e => errorAnswer e id

namespace Service

/-- A body is posted that is not too long and in which a transfer is requested, and the session has
a client. -/
structure Posted (s : Service) (target : String) (body : Bytes) (request : Request)
    (client : Client) : Prop where
  path : Http.pathOf target = "/"
  within : body.length ≤ Http.bodyLimit
  parsed : ∃ text, Bytes.text? body = some text ∧ Request.parse text = .ok request
  method : request.method = Method.transferCrypto.name
  session : Table.get? (request.sessionId.getD defaultSession) s.sessions = some client

section
variable {s : Service} {target : String} {body : Bytes} {request : Request} {client : Client}

/-- The parameters that are posted have no more places than the longest body has bytes. -/
theorem Posted.places_le (h : s.Posted target body request client) :
    request.params.places ≤ Http.bodyLimit := by
  obtain ⟨text, htext, hparse⟩ := h.parsed
  calc request.params.places ≤ text.length := Request.places_of_parse hparse
    _ ≤ body.length := Bytes.length_le_of_text? htext
    _ ≤ Http.bodyLimit := h.within

/-- The transfer is carried out, and the response is what it comes to. -/
theorem Posted.respond_eq (h : s.Posted target body request client) (transport : Transport σ)
    (start : Timestamp) (scene : Scene σ) :
    let handled := s.transferCrypto transport request.params
      (request.sessionId.getD defaultSession) start scene
    let responded := Http.respond s transport "POST" target body start scene
    responded.1 = ⟨200, (answerTo request.id handled.result).render⟩ ∧
      responded.2.2 = handled.scene := by
  intro handled responded
  -- The body reaches the request unchanged, since it is within the limit and is read as a text.
  obtain ⟨text, htext, hparse⟩ := h.parsed
  have hhandled : s.handle transport body start scene =
      s.handleRequest transport request start scene := by
    rw [handle, htext]
    simp only [handleText, hparse]
  have hdispatched : (s.handleRequest transport request start scene).1 =
      answerTo request.id handled.result ∧
      (s.handleRequest transport request start scene).2.2 = handled.scene := by
    simp only [handleRequest, h.method, show Method.parse Method.transferCrypto.name =
      .ok .transferCrypto from rfl]
    show _ = answerTo request.id (s.dispatch transport .transferCrypto _ _ _ _).result ∧ _
    split
    next hok => exact ⟨by rw [hok]; rfl, rfl⟩
    next herror => exact ⟨by rw [herror]; rfl, rfl⟩
  have hresponded := Http.respond_of_within s transport start scene h.path h.within
  rw [hhandled] at hresponded
  rw [show responded = _ from hresponded, ← hdispatched.1, ← hdispatched.2]
  exact ⟨rfl, rfl⟩

end

end Service

/-- A transfer that is requested in a session, whatever was asked of the service before and whatever
the outside does. -/
theorem transferred_as_asked {s : Service} (hs : s.Reached) {target : String} {body : Bytes}
    {request : Request} {client : Client} (hposted : s.Posted target body request client)
    (transport : Transport σ) (start : Timestamp) (scene : Scene σ) :
    let responded := Http.respond s transport "POST" target body start scene
    let handled := s.transferCrypto transport request.params
      (request.sessionId.getD defaultSession) start scene
    let calls := Conversation.about transport client request.params start scene
    ∃ op, client.operator = some op ∧
      responded.1 = ⟨200, (answerTo request.id handled.result).render⟩ ∧
      transport.Traced .usual scene.world calls.exchanges ∧
      responded.2.2.world = transport.after scene.world calls.exchanges ∧
      calls.Decides ⟨op.accountId, start⟩ handled.result ∧
      ((calls.exchanges = [] ∧ ∃ e, handled.result = .error e ∧
          (TransferParams.parse request.params).bind TransferParams.draft = .error e) ∨
        ∃ asked : Asked, asked.By request.params ∧ asked.Exact ∧
          calls.Carries op asked ⟨op.accountId, start⟩) := by
  intro responded handled calls
  obtain ⟨hresponse, hleft⟩ := hposted.respond_eq transport start scene
  obtain ⟨⟨op, hop⟩, hconfig⟩ := hs.configured _ _ hposted.session
  refine ⟨op, hop, hresponse, ?_⟩
  rw [show responded.2.2 = handled.scene from hleft]
  have hhandled : handled = s.transferCrypto transport request.params
    (request.sessionId.getD defaultSession) start scene := rfl
  have hcalls : calls = Conversation.about transport client request.params start scene := rfl
  simp only [Service.transferCrypto, hposted.session, Conversation.about] at hhandled hcalls
  clear_value handled calls
  -- Either the parameters make no draft and nothing is called, or there is a draft and the lemma on
  -- it decides.
  cases hdraft : (TransferParams.parse request.params).bind TransferParams.draft with
  | error e =>
    rw [hdraft] at hhandled hcalls
    subst hhandled hcalls
    refine ⟨transport.traced_nil _ _, rfl, ⟨⟨?_, ?_⟩, nofun, fun _ _ h => absurd rfl h⟩,
      .inl ⟨rfl, e, rfl, rfl⟩⟩
    · rintro ⟨answer, hanswer⟩
      cases hanswer
    · rintro ⟨⟨x, hx, -⟩, -⟩
      cases hx
  | ok draft =>
    rw [hdraft] at hhandled hcalls
    obtain ⟨asked, hby, hdrafted⟩ := TransferParams.draft_eq_ok hdraft
    -- Every entry takes up a place in the body, so the limit on the body bounds the entries.
    have hlimit := Nat.le_trans hby.length_le hposted.places_le
    obtain ⟨hcarries, hconcludes, htraced, hworld⟩ :=
      Service.transfer_concludes hop hconfig hdrafted hlimit transport start scene
    subst hhandled hcalls
    exact ⟨htraced, hworld, hconcludes.decides, .inr ⟨asked, hby, hdrafted.exact, hcarries⟩⟩

/-! ### A transfer that succeeds -/

open Simulation (ScriptedLedger)

/-- A request for a session, with an operator on the test network. -/
def setupText : String :=
  "\x7b\"jsonrpc\":\"2.0\",\"id\":1,\"method\":\"setup\",\"params\":" ++
    "\x7b\"operatorAccountId\":\"0.0.2\",\"operatorPrivateKey\":" ++
    "\"0707070707070707070707070707070707070707070707070707070707070707\"\x7d\x7d"

/-- A service that was asked for it. -/
def rentalService : { s : Service // s.Reached } :=
  ⟨_, .responded .fresh ScriptedLedger.transport "POST" "/" (Bytes.ofText setupText)
    ⟨1700000000, 0⟩ ⟨0, {}⟩⟩

/-- A request for a transfer, with one amount as a text and the other as a number. -/
def rentText : String :=
  "\x7b\"jsonrpc\":\"2.0\",\"id\":2,\"method\":\"transferCrypto\",\"params\":\x7b\"transfers\":[" ++
    "\x7b\"hbar\":\x7b\"accountId\":\"0.0.2\",\"amount\":\"-5\"\x7d\x7d," ++
    "\x7b\"hbar\":\x7b\"accountId\":\"0.0.9\",\"amount\":5\x7d\x7d]\x7d\x7d"

/-- A step that can be seen to succeed has a result. -/
theorem exists_of_isOk {ε α : Type} {result : Except ε α} (h : result.isOk = true) :
    ∃ a, result = .ok a := by
  cases result with
  | ok a => exact ⟨a, rfl⟩
  | error => cases h

/-- The transfer is requested in the session, and its answer is a result. -/
theorem rent_posted : ∃ request client,
    rentalService.val.Posted "/" (Bytes.ofText rentText) request client ∧
      ∃ answer, (rentalService.val.transferCrypto ScriptedLedger.transport request.params
        (request.sessionId.getD defaultSession) ⟨1700000000, 0⟩ ⟨0, {}⟩).result = .ok answer := by
  -- The whole run on the posted body is computed here, once, and the facts are read off.
  have hchecked : (Request.parse rentText).toOption.any (fun request =>
      request.method = Method.transferCrypto.name ∧
        (Table.get? (request.sessionId.getD defaultSession) rentalService.val.sessions).isSome ∧
        (rentalService.val.transferCrypto ScriptedLedger.transport request.params
          (request.sessionId.getD defaultSession) ⟨1700000000, 0⟩ ⟨0, {}⟩).result.isOk) = true := by
    decide +kernel
  cases hparse : Request.parse rentText with
  | error rejection =>
    rw [hparse] at hchecked
    cases hchecked
  | ok request =>
    rw [hparse] at hchecked
    obtain ⟨hmethod, hsession, hok⟩ := of_decide_eq_true hchecked
    obtain ⟨client, hclient⟩ := Option.isSome_iff_exists.1 hsession
    exact ⟨request, client, ⟨by decide, by decide +kernel, ⟨rentText, Bytes.text?_ofText rentText,
      hparse⟩, hmethod, hclient⟩, exists_of_isOk hok⟩

/-- The transfer was submitted as it was asked for, a node accepted it, and its receipt reports
success. -/
theorem transferred_as_asked_rent : ∃ (request : Request) (client : Client) (op : Operator)
    (asked : Asked),
    let id : TransactionId := ⟨op.accountId, ⟨1700000000, 0⟩⟩
    let calls := Conversation.about ScriptedLedger.transport client request.params id.validStart
      ⟨0, {}⟩
    rentalService.val.Posted "/" (Bytes.ofText rentText) request client ∧
      client.operator = some op ∧ asked.By request.params ∧ calls.Carries op asked id ∧
      (∃ x ∈ calls.submissions, x.Accepted) ∧
      (rentalService.val.transferCrypto ScriptedLedger.transport request.params
        (request.sessionId.getD defaultSession) id.validStart ⟨0, {}⟩).result =
          .ok (.record [("status", .text "SUCCESS"), ("transactionId", .text id.text)]) := by
  obtain ⟨request, client, hposted, answer, hanswer⟩ := rent_posted
  obtain ⟨op, hop, -, -, -, hdecides, hrest⟩ := transferred_as_asked
    rentalService.property hposted ScriptedLedger.transport ⟨1700000000, 0⟩ ⟨0, {}⟩
  -- A result means that the ledger accepted, by the general theorem.
  have haccepted := (hdecides.ok_iff.1 ⟨answer, hanswer⟩).1
  cases hdecides.answer answer hanswer
  rcases hrest with ⟨hnone, -⟩ | ⟨asked, hby, -, hcarries⟩
  · obtain ⟨x, hx, -⟩ := haccepted
    rw [(List.append_eq_nil_iff.1 hnone).1] at hx
    cases hx
  · exact ⟨request, client, op, asked, hposted, hop, hby, hcarries, haccepted, hanswer⟩

end Rpc

end LedgerClient
