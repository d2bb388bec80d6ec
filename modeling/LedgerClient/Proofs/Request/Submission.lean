import LedgerClient.Proofs.Retry.Trace
import LedgerClient.Proofs.Transfer.Signing
import LedgerClient.Simulation.ScriptedLedger

/-!
# `LedgerClient.Proofs.Request.Submission`: what is sent is what was signed

A submission looks the body and the signatures for a node up at every
attempt, and once more for the digest that it reports. That all three
are the same is not a matter of one execution: it takes that nothing
but the operator's signature has come in between
(`Frozen.Reachable.signedByOperator_bodyAt?`), and that the call that
decides is the one whose node the answer is reported for
(`Decided.of_mem_settles`).
-/

set_option autoImplicit false

namespace LedgerClient

variable {σ : Type}

/-- The answer of the node is that it takes what it was sent. -/
def Exchange.Accepted (x : Exchange) : Prop :=
  ∃ bytes response, x.outcome = .ok bytes ∧
    Wire.Response.codec.decode? bytes = some response ∧ response.precheck = .ok

/-- A submission is over by an acceptance, and by nothing else that is no error. -/
theorem Verdict.ofSubmission_eq_finished_iff (response : Wire.Response) :
    Verdict.ofSubmission response = .finished ↔ response.precheck = .ok := by
  unfold ofSubmission
  obtain ⟨precheck, payload⟩ := response
  cases precheck <;> simp [Status.isTransient]

/-- What goes to a node that a transaction was frozen for: the body for it, and the signatures over
that body with the operator's. -/
def FrozenBody.sent (b : FrozenBody) (operator : Option Operator) : Wire.SignedTransaction :=
  ⟨b.bytes, (b.signatures.signedBy operator b.bytes).toWire⟩

namespace Frozen

/-- The call sends the transaction to a node that it was frozen for. -/
structure Sends (f : Frozen) (operator : Option Operator) (call : Call) (b : FrozenBody) :
    Prop where
  /-- The body is the one for the node that is called. -/
  frozen : f.bodyAt? call.node.accountId = some b
  /-- The signatures are those that were collected over it, and the operator's if there was none
  under the operator's key. -/
  signed : ∀ key, (b.signatures.signedBy operator b.bytes).get? key = (b.signatures.get? key).or
    (operator.bind fun op =>
      if key = op.privateKey.publicKey then some (op.privateKey.sign b.bytes) else none)
  /-- The request is the body and its signatures, behind the number that says so. -/
  request : call.request =
    Wire.Codec.uint32.encode 0 ++ Wire.SignedTransaction.codec.encode (b.sent operator)
  /-- That is also what a node reads. -/
  read : Wire.SignedTransaction.codec.Fits (b.sent operator) →
    Wire.Request.codec.decode? call.request = some (.submitTransaction (b.sent operator))
  /-- What it then reads in the body names the node and the transaction. -/
  named : Wire.TransactionBody.codec.Fits (f.body call.node.accountId) →
    ∃ body, Wire.TransactionBody.codec.decode? b.bytes = some body ∧
      body = f.body call.node.accountId ∧ body.nodeAccountId = call.node.accountId ∧
      body.transactionId = f.transactionId.toWire

variable {f : Frozen}

/-- What is sent to a node is the same at every call. -/
theorem Sends.request_eq {operator : Option Operator} {call call' : Call} {b b' : FrozenBody}
    (h : f.Sends operator call b) (h' : f.Sends operator call' b')
    (hnode : call.node.accountId = call'.node.accountId) : call.request = call'.request := by
  have hbody : f.bodyAt? call.node.accountId = some b' := hnode ▸ h'.frozen
  cases Option.some.inj (h.frozen.symm.trans hbody)
  rw [h.request, h'.request]

/-- Executing a transaction leaves one that there is. -/
theorem Reachable.execute (h : f.Reachable) (client : Client) (transport : Transport σ)
    (options : ExecuteOptions σ) (scene : Scene σ) :
    (f.execute client transport options scene).1.Reachable := by
  unfold Frozen.execute
  simp only
  split <;> exact h.signedByOperator client

/-- The signed transaction for a node after the operator has signed. -/
theorem Reachable.signed_eq (h : f.Reachable) (client : Client) {node : AccountId} {b : FrozenBody}
    (hb : f.bodyAt? node = some b) :
    (f.signedByOperator client).signed node = .ok (b.sent client.operator) := by
  rw [signed, h.signedByOperator_bodyAt? client node, hb]
  rfl

/-- The request for a node is the one that sends its body. -/
theorem Reachable.sends_of_request (h : f.Reachable) (client : Client) {call : Call}
    (hrequest : (f.signedByOperator client).submission.request call.node = .ok call.request) :
    ∃ b, f.Sends client.operator call b := by
  -- A node without a body has no request, so there is a body.
  cases hb : f.bodyAt? call.node.accountId with
  | none =>
    simp only [submission, signed, h.signedByOperator_bodyAt? client, hb, Option.map_none,
      Except.map] at hrequest
    cases hrequest
  | some b =>
    simp only [submission, h.signed_eq client hb, Except.map, Except.ok.injEq] at hrequest
    have hnode : b.node = call.node.accountId := by simpa using List.find?_some hb
    refine ⟨b, hb, b.signatures.get?_signedBy client.operator b.bytes, hrequest.symm,
      -- What is sent is written as it is read, if its lengths can be announced.
      fun hfits => ?_, fun hfits => ?_⟩
    · rw [← hrequest]
      exact Wire.Request.codec_lawful.decode?_encode hfits
    · refine ⟨_, ?_, rfl, rfl, rfl⟩
      rw [h.bytes_eq b (List.mem_of_find?_eq_some hb), hnode]
      exact Wire.TransactionBody.codec_lawful.decode?_encode hfits

/-- An acceptance is the result, with the digest of what the request holds behind its number. -/
theorem Reachable.result_eq (h : f.Reachable) (client : Client) {call : Call} {b : FrozenBody}
    (hsends : f.Sends client.operator call b) (response : Wire.Response) :
    (f.signedByOperator client).submission.result call.node response =
      .ok ⟨f.transactionId, call.node.accountId, Crypto.sha384 (call.request.drop 4)⟩ := by
  have hdrop : call.request.drop 4 =
      Wire.SignedTransaction.codec.encode (b.sent client.operator) := by
    rw [hsends.request]
    exact List.drop_left' (Bytes.length_littleEndian 4 0)
  obtain ⟨-, hid⟩ := f.signedByOperator_fixed client
  simp only [submission, hash, h.signed_eq client hsends.frozen, Except.map, hid, hdrop]

/-- An execution makes no call because nobody has signed or for what the caller gave, or it is the
run of a submission, which its calls decide. -/
theorem execute_cases (f : Frozen) (client : Client) (transport : Transport σ)
    (options : ExecuteOptions σ) (scene : Scene σ) :
    let submission := (f.signedByOperator client).submission
    let run := (f.execute client transport options scene).2
    ((f.signedByOperator client).signers = [] ∧
      run = ⟨.error (.illegalState .unsigned), scene, client.network, []⟩) ∨
    ((f.signedByOperator client).signers ≠ [] ∧
      ∃ fault, run = ⟨.error (.invalidArgument fault), scene, client.network, []⟩) ∨
    ((f.signedByOperator client).signers ≠ [] ∧
      (∀ x ∈ run.exchanges, submission.request x.call.node = .ok x.call.request) ∧
      ∃ limit, Decided submission limit run.exchanges run.result) := by
  intro submission run
  -- Whether anybody has signed is looked at before anything else.
  by_cases hsigners : (f.signedByOperator client).signers = []
  · refine .inl ⟨hsigners, ?_⟩
    simp only [run, Frozen.execute, hsigners, if_true]
  have hrun : run = LedgerClient.execute transport client.config client.network submission options
      scene := by
    simp only [run, submission, Frozen.execute, hsigners, if_false, Client.execute]
  rw [hrun]
  refine .inr ?_
  rcases execute_accepted_or_refused transport client.config client.network submission options
    scene with ⟨budget, selection, network', hbudget, hcand⟩ | ⟨fault, -, hrefused⟩
  · obtain ⟨hasked, -⟩ := execute_recorded transport options hbudget hcand
    exact .inr ⟨hsigners, fun x hx => (hasked x hx).2, budget.maxAttempts,
      execute_decided transport options (.submission _) hbudget hcand⟩
  · exact .inl ⟨hsigners, fault, hrefused⟩

/-- Without an operator, a transaction that nobody has signed stays unsigned. -/
theorem unsigned_of_no_operator {client : Client} (hoperator : client.operator = none)
    (hnone : f.signers = []) : (f.signedByOperator client).signers = [] := by
  rw [signedByOperator, hoperator]
  exact hnone

end Frozen

/-- For every transaction that there is, whoever has signed it and however often it was executed
before, every client, and every behaviour of the outside: each call sends to its node the body that
was frozen for it, with the signatures that were collected for it and the operator's if there was
none, the same bytes whenever the same node is called. The transaction is accepted exactly when a
node accepts it, and the result then names the transaction, the node, and the digest of the signed
transaction that the node was sent. A transaction that nobody has signed is not sent. -/
theorem sent_as_signed {f : Frozen} (hf : f.Reachable) (client : Client) (transport : Transport σ)
    (options : ExecuteOptions σ) (scene : Scene σ) :
    let run := (f.execute client transport options scene).2
    let result (x : Exchange) : Submission :=
      ⟨f.transactionId, x.call.node.accountId, Crypto.sha384 (x.call.request.drop 4)⟩
    (∀ x ∈ run.exchanges, ∃ b, f.Sends client.operator x.call b) ∧
      (∀ x ∈ run.exchanges, ∀ y ∈ run.exchanges,
        x.call.node.accountId = y.call.node.accountId → x.call.request = y.call.request) ∧
      (∀ x ∈ run.exchanges, x.Accepted → run.result = .ok (result x)) ∧
      (∀ s, run.result = .ok s → ∃ x ∈ run.exchanges, x.Accepted ∧ s = result x) ∧
      (client.operator = none → f.signers = [] →
        run = ⟨.error (.illegalState .unsigned), scene, client.network, []⟩) ∧
      (f.execute client transport options scene).1.Reachable := by
  intro run result
  have hreachable := hf.execute client transport options scene
  rcases f.execute_cases client transport options scene with
    ⟨-, (hrun : run = _)⟩ | ⟨hsigners, fault, (hrun : run = _)⟩ |
      ⟨hsigners, hasked, limit, hdecided⟩
  · rw [hrun]
    exact ⟨nofun, nofun, nofun, nofun, fun _ _ => rfl, hreachable⟩
  · rw [hrun]
    exact ⟨nofun, nofun, nofun, nofun, fun hoperator hnone =>
      absurd (Frozen.unsigned_of_no_operator hoperator hnone) hsigners, hreachable⟩
  -- Some node was called, or could have been: the calls decide.
  have hsends : ∀ x ∈ run.exchanges, ∃ b, f.Sends client.operator x.call b := fun x hx =>
    hf.sends_of_request client (hasked x hx)
  refine ⟨hsends, ?_, ?_, ?_, fun hoperator hnone =>
    absurd (Frozen.unsigned_of_no_operator hoperator hnone) hsigners, hreachable⟩
  · -- There is one body for a node, and its signatures are fixed by now.
    intro x hx y hy hnode
    obtain ⟨b, hb⟩ := hsends x hx
    obtain ⟨b', hb'⟩ := hsends y hy
    exact hb.request_eq hb' hnode
  · rintro x hx ⟨bytes, response, outcome, decoded, accepted⟩
    obtain ⟨b, hb⟩ := hsends x hx
    have hverdict := (Verdict.ofSubmission_eq_finished_iff response).2 accepted
    calc run.result = _ := hdecided.of_finished hx outcome decoded hverdict
      _ = .ok (result x) := hf.result_eq client hb response
  · -- The result of the last call names what that call has sent.
    intro s hs
    have hdecided_ok : Decided _ limit run.exchanges (.ok s) := hs ▸ hdecided
    obtain ⟨x, hx, bytes, response, outcome, decoded, verdict, hresult⟩ :=
      hdecided_ok.of_ok
    obtain ⟨b, hb⟩ := hsends x hx
    rw [hf.result_eq client hb response] at hresult
    exact ⟨x, hx, ⟨bytes, response, outcome, decoded,
      (Verdict.ofSubmission_eq_finished_iff response).1 verdict⟩, (Except.ok.inj hresult).symm⟩

/-- A transfer for two nodes. -/
def twoNodeDraft : Draft where
  nodeIds := some [⟨0, 0, 3⟩, ⟨0, 0, 4⟩]
  transactionId := some ⟨⟨0, 0, 2⟩, ⟨1700000000, 0⟩⟩

/-- The transfer as somebody has signed it. -/
def twoNodeTransfer : Frozen :=
  (twoNodeDraft.freezeAs ⟨⟨0, 0, 2⟩, ⟨1700000000, 0⟩⟩ [⟨0, 0, 3⟩, ⟨0, 0, 4⟩]).signWith
    ⟨⟨List.replicate 32 7, rfl⟩⟩ fun _ => ⟨[1, 2, 3]⟩

/-- It was signed after it was frozen. -/
theorem twoNodeTransfer_reachable : twoNodeTransfer.Reachable :=
  .signWith (.freeze (show twoNodeDraft.freeze = .ok _ from rfl)) _ _

/-- The transfer is sent while the first node is busy. -/
def twoNodeRun : Run Simulation.ScriptedLedger Submission :=
  (twoNodeTransfer.execute (.ofNetwork .testnet) Simulation.ScriptedLedger.transport {}
    ⟨0, { scripts := [(⟨0, 0, 3⟩, [⟨0, .respond (.verdictOnly .busy)⟩])] }⟩).2

/-- Both nodes are sent what was signed for them, and the second takes it. -/
theorem sent_as_signed_twice :
    twoNodeRun.exchanges.map (fun x => x.call.node.accountId) = [⟨0, 0, 3⟩, ⟨0, 0, 4⟩] ∧
      twoNodeRun.result.isOk = true ∧
      ∀ x ∈ twoNodeRun.exchanges, ∃ b, twoNodeTransfer.Sends none x.call b :=
  ⟨by decide +kernel, by decide +kernel,
    (sent_as_signed twoNodeTransfer_reachable (.ofNetwork .testnet)
      Simulation.ScriptedLedger.transport {} ⟨0, _⟩).1⟩

end LedgerClient
