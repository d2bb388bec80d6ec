import LedgerClient.Proofs.Request.Receipt
import LedgerClient.Proofs.Wire.Binary

/-!
# `LedgerClient.Proofs.Request.Polling`: asking until a receipt is final

The node that accepted a transaction is asked for the receipt until it has
one that is final. `Exchange.PutsOff` says which answers are none, in terms
of the two statuses of an answer: that of the node and that of the receipt.
It is what the engine takes for a failed attempt (`putsOff_iff`), so every
call but the last puts the question off.

A receipt that is final ends the polling, whatever it says
(`Decided.eq_ok_iff_reports`). Only then the receipt is looked at, so what
the caller gets is the last answer, as a receipt of success or as an error
with its status. An error with the status of a receipt is never one of the
engine (`Decided.ne_receiptStatus`).

* `Submission.receipt_polled`: the calls of a question for a receipt, and
  what comes of them, for every client that knows the node, with all
  settings and every behaviour of the outside.
-/

set_option autoImplicit false

namespace LedgerClient

/-! ### Answers that are none -/

/-- With these a node says that it cannot tell yet. -/
def Status.deferring : List Status :=
  [.busy, .platformNotActive, .platformTransactionNotCreated, .unknown, .receiptNotFound]

/-- With these a receipt says that consensus has not made up its mind. -/
def Status.pending : List Status :=
  [.ok, .busy, .unknown, .receiptNotFound]

/-- An answer that puts off is not that all is well. -/
theorem Status.ok_notMem_deferring : Status.ok ∉ deferring := by
  decide

/-- A receipt that is still pending does not report success. -/
theorem Status.success_notMem_pending : Status.success ∉ pending := by
  decide

/-- The question for a receipt has to be asked again: there was no answer, or the node cannot tell
yet, or it has a receipt that is pending. -/
inductive Exchange.PutsOff (x : Exchange) : Prop
  | fault {fault : Fault} (outcome : x.outcome = .error fault)
  | deferred {bytes : Bytes} {response : Wire.Response} (outcome : x.outcome = .ok bytes)
      (decoded : Wire.Response.codec.decode? bytes = some response)
      (precheck : response.precheck ∈ Status.deferring)
  | pending {status : Status} (reports : x.Reports status) (status_mem : status ∈ Status.pending)

namespace Verdict

/-- Unless the node has an answer, its own status is what counts. -/
theorem ofReceipt_of_ne_ok {precheck : Status} (h : precheck ≠ .ok) (payload : Wire.Payload) :
    Verdict.ofReceipt ⟨precheck, payload⟩ =
      if precheck ∈ Status.deferring then .retry precheck else .error precheck := by
  cases precheck
  case ok => exact absurd rfl h
  all_goals rfl

/-- If it has a receipt, the status of the receipt is what counts. -/
theorem ofReceipt_receipt (status : Status) :
    Verdict.ofReceipt ⟨.ok, .receipt ⟨status⟩⟩ =
      if status ∈ Status.pending then .retry status else .finished := by
  cases status <;> rfl

/-- A question for a receipt is asked again for one of the two statuses. -/
theorem ofReceipt_eq_retry_iff (response : Wire.Response) (status : Status) :
    Verdict.ofReceipt response = .retry status ↔
      (response.precheck = status ∧ status ∈ Status.deferring) ∨
        (response = ⟨.ok, .receipt ⟨status⟩⟩ ∧ status ∈ Status.pending) := by
  obtain ⟨precheck, payload⟩ := response
  constructor
  · intro h
    -- The verdict is looked at first, and a receipt only if that is fine.
    by_cases hok : precheck = .ok
    · subst hok
      cases payload with
      | receipt receipt =>
        rw [ofReceipt_receipt] at h
        split at h
        · cases h
          exact .inr ⟨rfl, ‹_›⟩
        · cases h
      | _ => cases h
    · rw [ofReceipt_of_ne_ok hok] at h
      split at h
      · cases h
        exact .inl ⟨rfl, ‹_›⟩
      · cases h
  · rintro (⟨rfl, hmem⟩ | ⟨hresponse, hmem⟩)
    · -- A node that cannot tell yet has no answer.
      have hok : precheck ≠ .ok := by
        rintro rfl
        exact Status.ok_notMem_deferring hmem
      rw [ofReceipt_of_ne_ok hok]
      exact if_pos hmem
    · rw [hresponse, ofReceipt_receipt]
      exact if_pos hmem

end Verdict

/-- What the engine takes for a failed attempt is what puts the question off. -/
theorem Exchange.putsOff_iff (id : TransactionId) (nodes : Option (List AccountId))
    (x : Exchange) : x.PutsOff ↔ ∃ failure, x.FailsWith (Receipt.query id nodes) failure := by
  constructor
  · intro h
    -- There are three reasons, and the engine knows two of them as a status.
    cases h with
    | fault outcome => exact ⟨_, .fault outcome⟩
    | deferred outcome decoded precheck =>
      exact ⟨_, .status outcome decoded
        ((Verdict.ofReceipt_eq_retry_iff _ _).2 (.inl ⟨rfl, precheck⟩))⟩
    | pending reports status_mem =>
      obtain ⟨bytes, outcome, decoded⟩ := reports
      exact ⟨_, .status outcome decoded
        ((Verdict.ofReceipt_eq_retry_iff _ _).2 (.inr ⟨rfl, status_mem⟩))⟩
  · rintro ⟨failure, h⟩
    cases h with
    | fault outcome => exact .fault outcome
    | status outcome decoded verdict =>
      rcases (Verdict.ofReceipt_eq_retry_iff _ _).1 verdict with ⟨rfl, hmem⟩ | ⟨rfl, hmem⟩
      · exact .deferred outcome decoded hmem
      · exact .pending ⟨_, outcome, decoded⟩ hmem

/-! ### The last answer -/

section
variable {id : TransactionId} {nodes : Option (List AccountId)} {limit : Nat}
  {exchanges : List Exchange} {result : Except Error Receipt}

/-- A receipt that is not pending ends the question, whatever it says. -/
theorem Exchange.Reports.settles {x : Exchange} {status : Status} (h : x.Reports status)
    (hfinal : status ∉ Status.pending) (attempts : Nat) :
    x.Settles (Receipt.query id nodes) attempts (.ok ⟨status, id⟩) := by
  obtain ⟨bytes, outcome, decoded⟩ := h
  exact .finished outcome decoded ((Verdict.ofReceipt_receipt status).trans (if_neg hfinal))

/-- All calls of a request but the last were worth another attempt. -/
theorem Decided.earlier {α : Type} {exec : Executable α} {result : Except Error α}
    (h : Decided exec limit exchanges result) :
    ∀ x ∈ exchanges.dropLast, ∃ failure, x.FailsWith exec failure := by
  cases h with
  | uncalled => exact nofun
  | failed retried => simpa using retried
  | settled retried => simpa using retried

/-- There is a receipt exactly if the last answer is one that is final. -/
theorem Decided.eq_ok_iff_reports (h : Decided (Receipt.query id nodes) limit exchanges result)
    {r : Receipt} : result = .ok r ↔ r.transactionId = id ∧ r.status ∉ Status.pending ∧
      ∃ x, exchanges.getLast? = some x ∧ x.Reports r.status := by
  constructor
  · rintro rfl
    obtain ⟨x, hx, bytes, response, outcome, decoded, verdict, hresult⟩ := h.of_ok
    obtain ⟨status, rfl, -⟩ := (Verdict.ofReceipt_eq_finished_iff response).1 verdict
    cases hresult
    have hfinal : status ∉ Status.pending := by
      intro hmem
      -- A receipt that is pending would have been no end of the polling.
      cases ((Verdict.ofReceipt_receipt status).trans (if_pos hmem)).symm.trans verdict
    have hreports : x.Reports status := ⟨bytes, outcome, decoded⟩
    -- A call that settles the question is the last one.
    obtain ⟨earlier, hexchanges, -⟩ := h.of_mem_settles hx (hreports.settles hfinal 0)
    refine ⟨rfl, hfinal, x, ?_, hreports⟩
    rw [hexchanges, List.getLast?_concat]
  · rintro ⟨rfl, hfinal, x, hlast, hreports⟩
    -- The last answer is final, so it settles the question, and as itself.
    have hmem : x ∈ exchanges := List.mem_of_getLast? hlast
    obtain ⟨earlier, -, hsettles⟩ := h.of_mem_settles hmem (hreports.settles hfinal 0)
    exact hsettles.unique (hreports.settles hfinal _)

/-- The status of a receipt is no error of the engine. -/
theorem Decided.ne_receiptStatus (h : Decided (Receipt.query id nodes) limit exchanges result)
    (status : Status) (id' : TransactionId) : result ≠ .error (.receiptStatus status id') := by
  intro hresult
  -- The engine gives up for its own reasons, or ends with a receipt that is final.
  cases h with
  | uncalled gaveUp => cases gaveUp <;> cases hresult
  | failed _ _ gaveUp => cases gaveUp <;> cases hresult
  | settled _ _ settles =>
    cases settles with
    | finished _ _ verdict =>
      obtain ⟨status, rfl, -⟩ := (Verdict.ofReceipt_eq_finished_iff _).1 verdict
      cases hresult
    | refused => cases hresult
    | expired => cases hresult
    | undecodable => cases hresult

/-- If the last call puts the question off, it is given up. -/
theorem Decided.gaveUp_of_putsOff (h : Decided (Receipt.query id nodes) limit exchanges result)
    {x : Exchange} (hlast : exchanges.getLast? = some x) (hx : x.PutsOff) :
    ∃ failure, x.FailsWith (Receipt.query id nodes) failure ∧
      GaveUp limit exchanges.length (some failure) result := by
  cases h with
  | uncalled => cases hlast
  | failed retried fails gaveUp =>
    rw [List.getLast?_concat] at hlast
    cases hlast
    rw [List.length_append]
    exact ⟨_, fails, gaveUp⟩
  -- A call that settles the question does not put it off.
  | settled retried within settles =>
    rw [List.getLast?_concat] at hlast
    cases hlast
    obtain ⟨failure, hfails⟩ := (Exchange.putsOff_iff id nodes x).1 hx
    exact absurd hfails (settles.not_failsWith failure)

/-! ### The receipt that the caller gets -/

/-- What would be done with the result of a request is not done if it is given up. -/
theorem GaveUp.bind {α β : Type} {attempts : Nat} {last : Option AttemptFailure}
    {result : Except Error α} (h : GaveUp limit attempts last result) (f : α → Except Error β) :
    GaveUp limit attempts last (result.bind f) := by
  cases h with
  | spent all => exact .spent all
  | overdue fewer => exact .overdue fewer
  | cancelled fewer => exact .cancelled fewer

/-- The caller gets the status of a receipt exactly if there is one that is not of success. -/
theorem Receipt.bind_validate_eq_receiptStatus_iff {status : Status} {id' : TransactionId}
    (hengine : result ≠ .error (.receiptStatus status id')) :
    result.bind Receipt.validate = .error (.receiptStatus status id') ↔
      result = .ok ⟨status, id'⟩ ∧ status ≠ .success := by
  cases result with
  | error e => simpa [Except.bind] using hengine
  | ok receipt =>
    show receipt.validate = .error (.receiptStatus status id') ↔ _
    unfold validate
    -- Success is the one status that the caller gets as a receipt.
    by_cases h : receipt.status = .success
    · rw [if_pos h]
      constructor
      · intro heq
        cases heq
      · rintro ⟨heq, hfailure⟩
        cases heq
        exact absurd h hfailure
    · rw [if_neg h]
      constructor
      · intro heq
        cases heq
        exact ⟨rfl, h⟩
      · rintro ⟨heq, -⟩
        cases heq
        rfl

end

/-! ### Polling -/

variable {σ : Type}

/-- What the calls of a question for a receipt are, and what comes of them. -/
structure Submission.Polled (s : Submission) (network : Network) (run : Run σ Receipt) : Prop where
  /-- Only the node that accepted the transaction is asked, and for its receipt. -/
  asks : ∀ x ∈ run.exchanges, x.call.node ∈ network.nodes ∧ x.call.node.accountId = s.nodeId ∧
    Wire.Request.codec.decode? x.call.request =
      some (.query (.transactionReceipt s.transactionId.toWire))
  /-- Every answer but the last puts the question off. -/
  earlier : ∀ x ∈ run.exchanges.dropLast, x.PutsOff
  /-- The caller gets the receipt if the last answer is one of success. -/
  ok : ∀ r, run.result = .ok r ↔ r = ⟨.success, s.transactionId⟩ ∧
    ∃ x, run.exchanges.getLast? = some x ∧ x.Reports .success
  /-- The caller gets the status of a receipt if the last answer is any other that is final. -/
  receiptStatus : ∀ status id, run.result = .error (.receiptStatus status id) ↔
    id = s.transactionId ∧ status ≠ .success ∧ status ∉ Status.pending ∧
      ∃ x, run.exchanges.getLast? = some x ∧ x.Reports status

/-- What the calls of a question have to do with the outside and with the budget. -/
structure Submission.Within (s : Submission) (transport : Transport σ) (budget : Budget)
    (start : Scene σ) (run : Run σ Receipt) : Prop where
  /-- The answers are those that the outside gives, cut off at the limit of an attempt. -/
  traced : transport.Traced budget start.world run.exchanges
  world : run.scene.world = transport.after start.world run.exchanges
  length_le : run.exchanges.length ≤ budget.maxAttempts
  /-- If the last answer puts the question off as well, the question is given up. -/
  gaveUp : ∀ x, run.exchanges.getLast? = some x → x.PutsOff →
    ∃ failure, x.FailsWith (Receipt.query s.transactionId (some [s.nodeId])) failure ∧
      GaveUp budget.maxAttempts run.exchanges.length (some failure) run.result

namespace Submission

variable {s : Submission} {network : Network} {run : Run σ Receipt}

/-- Neither as a receipt nor as an error does the caller get a status that is pending. -/
theorem Polled.not_pending (h : s.Polled network run) {status : Status}
    (hpending : status ∈ Status.pending) :
    (∀ r, run.result = .ok r → r.status ≠ status) ∧
      ∀ id, run.result ≠ .error (.receiptStatus status id) := by
  constructor
  · intro r hr hstatus
    obtain ⟨rfl, -⟩ := (h.ok r).1 hr
    cases hstatus
    exact Status.success_notMem_pending hpending
  · intro id hid
    obtain ⟨-, -, hfinal, -⟩ := (h.receiptStatus status id).1 hid
    exact hfinal hpending

/-- What is decided by calls that ask the node for the receipt is polled. -/
theorem polled_of_decided (run : Run σ Receipt) {limit : Nat}
    (hasked : ∀ x ∈ run.exchanges, x.call.node ∈ network.nodes ∧
      x.call.node.accountId = s.nodeId ∧ Wire.Request.codec.decode? x.call.request =
        some (.query (.transactionReceipt s.transactionId.toWire)))
    (h : Decided (Receipt.query s.transactionId (some [s.nodeId])) limit run.exchanges
      run.result) :
    s.Polled network { run with result := run.result.bind Receipt.validate } where
  asks := hasked
  earlier := by
    intro x hx
    exact (Exchange.putsOff_iff _ _ x).2 (h.earlier x hx)
  ok := by
    intro r
    show run.result.bind Receipt.validate = .ok r ↔ _
    rw [Receipt.bind_validate_eq_ok_iff, h.eq_ok_iff_reports]
    constructor
    · -- Of the receipts that are final, only that of success gets through.
      rintro ⟨⟨hid, -, x, hlast, hreports⟩, hsuccess⟩
      obtain ⟨status, id⟩ := r
      cases hid
      cases hsuccess
      exact ⟨rfl, x, hlast, hreports⟩
    · rintro ⟨rfl, x, hlast, hreports⟩
      exact ⟨⟨rfl, Status.success_notMem_pending, x, hlast, hreports⟩, rfl⟩
  receiptStatus := by
    intro status id
    show run.result.bind Receipt.validate = .error (.receiptStatus status id) ↔ _
    rw [Receipt.bind_validate_eq_receiptStatus_iff (h.ne_receiptStatus status id),
      h.eq_ok_iff_reports]
    constructor
    · -- Those of any other status come out as errors, with the status in them.
      rintro ⟨⟨hid, hfinal, hlast⟩, hfailure⟩
      exact ⟨hid, hfailure, hfinal, hlast⟩
    · rintro ⟨hid, hfailure, hfinal, hlast⟩
      exact ⟨⟨hid, hfinal, hlast⟩, hfailure⟩

/-- It keeps to its budget, and is given up if the last call puts the question off as well. -/
theorem within_of_decided (run : Run σ Receipt) {transport : Transport σ} {budget : Budget}
    {start : Scene σ}
    (htraced : transport.Traced budget start.world run.exchanges)
    (hworld : run.scene.world = transport.after start.world run.exchanges)
    (h : Decided (Receipt.query s.transactionId (some [s.nodeId])) budget.maxAttempts
      run.exchanges run.result) :
    s.Within transport budget start { run with result := run.result.bind Receipt.validate } where
  traced := htraced
  world := hworld
  length_le := h.length_le
  gaveUp := by
    intro x hlast hx
    obtain ⟨failure, hfails, hgaveUp⟩ := h.gaveUp_of_putsOff hlast hx
    exact ⟨failure, hfails, hgaveUp.bind Receipt.validate⟩

/-- A question that is refused for what the caller gave asks nobody. -/
theorem polled_of_refused {fault : ArgumentFault} (hexchanges : run.exchanges = [])
    (hresult : run.result = .error (.invalidArgument fault)) : s.Polled network run where
  asks := by
    rw [hexchanges]
    exact nofun
  earlier := by
    rw [hexchanges]
    exact nofun
  ok := by
    intro r
    simp [hexchanges, hresult]
  receiptStatus := by
    intro status id
    simp [hexchanges, hresult]

/-- Whoever is asked is the node that accepted the transaction, and is asked for its receipt. -/
theorem asks_of_candidates {network' : Network} {selection : Selection} {call : Call}
    (hcand : candidates network (Receipt.query s.transactionId (some [s.nodeId])) =
      .ok (selection, network'))
    (hnode : call.node ∈ selection.candidates)
    (hrequest : (Receipt.query s.transactionId (some [s.nodeId])).request call.node =
      .ok call.request) :
    call.node ∈ network.nodes ∧ call.node.accountId = s.nodeId ∧
      Wire.Request.codec.decode? call.request =
        some (.query (.transactionReceipt s.transactionId.toWire)) := by
  -- The question is for one node, so there is one candidate.
  obtain ⟨hnodes, haccounts, -⟩ := Network.selectionFor_eq_ok (selectionFor_of_candidates rfl hcand)
  refine ⟨hnodes _ hnode, ?_, ?_⟩
  · have hmem := List.mem_map_of_mem (f := Node.accountId) hnode
    rw [haccounts] at hmem
    exact List.mem_singleton.1 hmem
  · have hbytes := (Except.ok.inj hrequest).symm
    have hfits : Wire.Request.codec.Fits
        (.query (.transactionReceipt s.transactionId.toWire)) := by
      trivial
    rw [hbytes]
    exact Wire.Request.codec_lawful.decode?_encode hfits

end Submission

/-- Every question for the receipt of a transaction, to a client that knows the node, with all
options and every behaviour of the outside. All calls go to that node and ask for the receipt of
that transaction, and all but the last put the question off. There is a receipt exactly if the last
answer is one of success, and the error with the status of a receipt exactly if the last answer is
a receipt with that status, which is neither success nor pending. So a pending receipt never gets to
the caller. If the options are refused, there is no call. -/
theorem Submission.receipt_polled {s : Submission} (client : Client)
    (hknown : s.nodeId ∈ client.network.ids) (transport : Transport σ)
    (options : ExecuteOptions σ) (scene : Scene σ) :
    let run := s.receipt client transport options scene
    s.Polled client.network run ∧
      (∀ status ∈ Status.pending, (∀ r, run.result = .ok r → r.status ≠ status) ∧
        ∀ id, run.result ≠ .error (.receiptStatus status id)) ∧
      (∀ budget, Budget.resolve client.config options scene.now = .ok budget →
        s.Within transport budget scene run) ∧
      (∀ e, Budget.resolve client.config options scene.now = .error e →
        run.exchanges = [] ∧ run.result = .error e) := by
  intro run
  suffices h : s.Polled client.network run ∧
      (∀ budget, Budget.resolve client.config options scene.now = .ok budget →
        s.Within transport budget scene run) ∧
      (∀ e, Budget.resolve client.config options scene.now = .error e →
        run.exchanges = [] ∧ run.result = .error e) from
    ⟨h.1, fun status hpending => h.1.not_pending hpending, h.2⟩
  -- The node is known, so that only the budget can be refused.
  obtain ⟨selection, hcand⟩ : ∃ selection, candidates client.network
      (Receipt.query s.transactionId (some [s.nodeId])) = .ok (selection, client.network) :=
    candidates_of_known rfl (List.cons_ne_nil _ _) fun id hid => List.mem_singleton.1 hid ▸ hknown
  -- Without a budget there is no call, and with one the calls decide.
  cases hbudget : Budget.resolve client.config options scene.now with
  | error e =>
    obtain ⟨fault, rfl⟩ := Budget.resolve_eq_error hbudget
    have hrefused : run = ⟨.error (.invalidArgument fault), scene, client.network, []⟩ := by
      show Submission.receipt _ _ _ _ _ = _
      unfold Submission.receipt Client.execute execute
      rw [hbudget]
      rfl
    rw [hrefused]
    refine ⟨Submission.polled_of_refused rfl rfl, nofun, ?_⟩
    intro e he
    cases he
    exact ⟨rfl, rfl⟩
  | ok budget =>
    have hdecided := execute_decided transport options (.receipt _ _) hbudget hcand
    obtain ⟨hasked, htraced, hworld⟩ := execute_recorded transport options hbudget hcand
    generalize hexecute : execute transport client.config client.network
      (Receipt.query s.transactionId (some [s.nodeId])) options scene = asked at *
    -- The result of the engine goes through the check of the receipt, and nothing else changes.
    have hrun : run = { asked with result := asked.result.bind Receipt.validate } := by
      rw [← hexecute]
      rfl
    rw [hrun]
    refine ⟨Submission.polled_of_decided asked (fun x hx => ?_) hdecided, ?_, ?_⟩
    · exact Submission.asks_of_candidates hcand (hasked x hx).1 (hasked x hx).2
    · intro budget' hbudget'
      cases hbudget'
      exact Submission.within_of_decided asked htraced hworld hdecided
    · intro e he
      cases he

/-- A transaction that the first node of the test network has accepted. -/
def acceptedTransfer : Submission where
  transactionId := ⟨⟨0, 0, 2⟩, ⟨1700000000, 0⟩⟩
  nodeId := ⟨0, 0, 3⟩
  hash := []

/-- A ledger in which consensus takes some time: the node does not know of the transaction at first,
and then not what became of it. -/
def slowLedger : Simulation.ScriptedLedger where
  scripts := [(⟨0, 0, 3⟩, [⟨0, .respond (.verdictOnly .receiptNotFound)⟩,
    ⟨0, .respond ⟨.ok, .receipt ⟨.unknown⟩⟩⟩])]

/-- The receipt of the transaction in that ledger. -/
def slowReceipt : Run Simulation.ScriptedLedger Receipt :=
  acceptedTransfer.receipt (.ofNetwork .testnet) Simulation.ScriptedLedger.transport {}
    ⟨0, slowLedger⟩

/-- Two calls put the question off, and the third brings the receipt. -/
theorem Submission.receipt_polled_thrice :
    acceptedTransfer.nodeId ∈ (Client.ofNetwork .testnet).network.ids ∧
      slowReceipt.exchanges.length = 3 ∧
      slowReceipt.result = .ok ⟨.success, acceptedTransfer.transactionId⟩ ∧
      acceptedTransfer.Polled (Client.ofNetwork .testnet).network slowReceipt :=
  ⟨by decide, rfl, rfl,
    (Submission.receipt_polled (.ofNetwork .testnet) (by decide)
      Simulation.ScriptedLedger.transport {} ⟨0, slowLedger⟩).1⟩

end LedgerClient
