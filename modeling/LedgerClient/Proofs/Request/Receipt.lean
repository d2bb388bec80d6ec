import LedgerClient.Proofs.Retry.Uninterrupted
import LedgerClient.Request.Submission

/-!
# `LedgerClient.Proofs.Request.Receipt`: when a receipt is one of success

A question for a receipt is over when a node answers with a receipt that
is final, whatever it says; only then is it looked at whether it says
success. `Exchange.Reports` is an answer with a receipt. Waiting for a
receipt succeeds by an answer that reports success (`receipt_of_reports`)
and by nothing else (`receipt_of_ok`). Every other end of a wait that
nothing interrupts is an error that lays it on the ledger, or an answer
that cannot be read (`receipt_error`).

`Submission.receipt_followed` puts this together for the question that
follows a submission.
-/

set_option autoImplicit false

namespace LedgerClient

/-- The answer of the node is a receipt with a status. -/
def Exchange.Reports (x : Exchange) (status : Status) : Prop :=
  ∃ bytes, x.outcome = .ok bytes ∧
    Wire.Response.codec.decode? bytes = some ⟨.ok, .receipt ⟨status⟩⟩

/-- A question for a receipt is over by a receipt that is final. -/
theorem Verdict.ofReceipt_eq_finished_iff (response : Wire.Response) :
    Verdict.ofReceipt response = .finished ↔
      ∃ status, response = ⟨.ok, .receipt ⟨status⟩⟩ ∧ isPending status = false := by
  obtain ⟨precheck, payload⟩ := response
  constructor
  · intro h
    unfold ofReceipt at h
    -- Only a verdict of ok lets the receipt be looked at.
    cases precheck
    case ok =>
      cases payload with
      | receipt receipt =>
        cases hpending : isPending receipt.status with
        | false => exact ⟨receipt.status, rfl, hpending⟩
        | true => simp [Status.isTransient, hpending] at h
      | _ => simp [Status.isTransient] at h
    all_goals simp [Status.isTransient] at h
  · rintro ⟨status, h, hpending⟩
    cases h
    simp [ofReceipt, Status.isTransient, hpending]

section
variable {id : TransactionId} {nodes : Option (List AccountId)} {limit : Nat}
  {exchanges : List Exchange} {result : Except Error Receipt}

/-- Waiting for a receipt succeeds if some answer reports success. -/
theorem receipt_of_reports (h : Decided (Receipt.query id nodes) limit exchanges result)
    {x : Exchange} (hx : x ∈ exchanges) (hreports : x.Reports .success) :
    result.bind Receipt.validate = .ok ⟨.success, id⟩ := by
  obtain ⟨bytes, outcome, decoded⟩ := hreports
  have hverdict : (Receipt.query id nodes).verdict ⟨.ok, .receipt ⟨.success⟩⟩ = .finished :=
    (Verdict.ofReceipt_eq_finished_iff _).2 ⟨.success, rfl, rfl⟩
  rw [h.of_finished hx outcome decoded hverdict]
  rfl

/-- The caller gets a receipt exactly if there is one of success. -/
theorem Receipt.bind_validate_eq_ok_iff {r : Receipt} :
    result.bind Receipt.validate = .ok r ↔ result = .ok r ∧ r.status = .success := by
  cases result with
  | error e => simp [Except.bind]
  | ok receipt =>
    show receipt.validate = .ok r ↔ _
    unfold validate
    -- There is a check behind the engine, which lets one status through.
    by_cases h : receipt.status = .success
    · rw [if_pos h]
      constructor
      · intro heq
        cases heq
        exact ⟨rfl, h⟩
      · exact fun heq => heq.1
    · rw [if_neg h]
      constructor
      · intro heq
        cases heq
      · rintro ⟨heq, hsuccess⟩
        cases heq
        exact absurd hsuccess h

/-- If waiting for a receipt succeeds, some answer reports success, and the receipt is that of the
transaction. -/
theorem receipt_of_ok (h : Decided (Receipt.query id nodes) limit exchanges result) {r : Receipt}
    (hr : result.bind Receipt.validate = .ok r) :
    r = ⟨.success, id⟩ ∧ ∃ x ∈ exchanges, x.Reports .success := by
  obtain ⟨rfl, hsuccess⟩ := Receipt.bind_validate_eq_ok_iff.1 hr
  obtain ⟨x, hx, bytes, response, outcome, decoded, verdict, hresult⟩ := h.of_ok
  obtain ⟨status, rfl, -⟩ := (Verdict.ofReceipt_eq_finished_iff response).1 verdict
  cases hresult
  cases hsuccess
  exact ⟨rfl, x, hx, bytes, outcome, decoded⟩

/-- If waiting for a receipt fails and nothing interrupted it, the network failed the request, or
the last answer could not be read. -/
theorem receipt_error (h : Uninterrupted (Receipt.query id nodes) limit exchanges result)
    {e : Error}
    (he : result.bind Receipt.validate = .error e) :
    e.isLedgerError = true ∨ (e = .codec .undecodable ∧ ∃ x ∈ exchanges, x.Unreadable) := by
  cases result with
  | ok receipt =>
    -- A receipt that is not of success is an error of the ledger.
    change receipt.validate = .error e at he
    unfold Receipt.validate at he
    split at he
    · cases he
    · cases he
      exact .inl rfl
  | error e' =>
    cases he
    -- The third possibility is that a receipt could not be made of an answer, but that never fails.
    rcases h.error_cases with hledger | hcodec | ⟨x, -, response, verdict, hresult⟩
    · exact .inl hledger
    · exact .inr hcodec
    · obtain ⟨status, rfl, -⟩ := (Verdict.ofReceipt_eq_finished_iff response).1 verdict
      cases hresult

end

/-- What comes of asking the node that accepted a transaction for the receipt. -/
structure Submission.Followed {σ : Type} (s : Submission) (transport : Transport σ)
    (start : Scene σ) (run : Run σ Receipt) : Prop where
  /-- Only that node is asked, for the receipt of that transaction. -/
  asks : ∀ y ∈ run.exchanges, y.call.node.accountId = s.nodeId ∧
    y.call.request = requestBytes (.query (.transactionReceipt s.transactionId.toWire))
  traced : transport.Traced .usual start.world run.exchanges
  world : run.scene.world = transport.after start.world run.exchanges
  /-- A report of success is the result. -/
  reported : ∀ y ∈ run.exchanges, y.Reports .success →
    run.result = .ok ⟨.success, s.transactionId⟩
  /-- There is no other result. -/
  ok : ∀ r, run.result = .ok r →
    r = ⟨.success, s.transactionId⟩ ∧ ∃ y ∈ run.exchanges, y.Reports .success
  /-- Without one, the network failed the request, or an answer could not be read. -/
  error : ∀ e, run.result = .error e →
    e.isLedgerError = true ∨ (e = .codec .undecodable ∧ ∃ y ∈ run.exchanges, y.Unreadable)

/-- What comes of it with a client that has the default settings and knows the node. -/
theorem Submission.receipt_followed {σ : Type} {s : Submission} (client : Client)
    (hknown : s.nodeId ∈ client.network.ids) (hconfig : client.config = .default)
    (transport : Transport σ) (scene : Scene σ) :
    s.Followed transport scene (s.receipt client transport {} scene) := by
  -- The question is asked as usual, of the one node, which the client knows.
  obtain ⟨hended, hasked, htraced, hworld⟩ :=
    execute_usual (.receipt s.transactionId (some [s.nodeId])) rfl (List.cons_ne_nil _ _)
      (fun id hid => List.mem_singleton.1 hid ▸ hknown) transport scene
  have hreceipt : s.receipt client transport {} scene =
      let run := execute transport .default client.network
        (Receipt.query s.transactionId (some [s.nodeId])) {} scene
      { run with result := run.result.bind Receipt.validate } := by
    rw [receipt, Client.execute, hconfig]
  rw [hreceipt]
  refine ⟨fun y hy => ?_, htraced, hworld, fun y hy => receipt_of_reports hended.decided hy,
    fun r => receipt_of_ok hended.decided, fun e => receipt_error hended⟩
  obtain ⟨hnode, hrequest⟩ := hasked y hy
  exact ⟨List.mem_singleton.1 hnode, (Except.ok.inj hrequest).symm⟩

end LedgerClient
