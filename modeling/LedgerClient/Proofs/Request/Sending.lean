import LedgerClient.Proofs.Request.Submission
import LedgerClient.Proofs.Retry.Marks
import LedgerClient.Proofs.Retry.Uninterrupted

/-!
# `LedgerClient.Proofs.Request.Sending`: a draft that is frozen and sent at once

A client that freezes a draft with neither name nor nodes gives it a
fresh name and all of its nodes, and then it is only the operator who
signs. So every call that sends it carries one body for its node, under
one name, with one signature (`Draft.Sent.sends`). With the default
settings nothing interrupts the sending, so there is at least one call,
and either some node accepts, or the sending ends in an error that lays
it on the ledger or in an answer that cannot be read.
-/

set_option autoImplicit false

namespace LedgerClient

variable {σ : Type}

/-- A body as an operator signs it: alone. -/
def Operator.signed (op : Operator) (body : Wire.TransactionBody) : Wire.SignedTransaction :=
  let bytes := Wire.TransactionBody.codec.encode body
  ⟨bytes, [⟨op.privateKey.publicKey.key, (op.privateKey.sign bytes).bytes⟩]⟩

/-! ### Freezing for a client -/

namespace Network

variable (net : Network)

/-- There is an account in an order, since there is one in the network. -/
theorem orderedFrom_ne_nil (first : AccountId) : net.orderedFrom first ≠ [] := by
  intro h
  obtain ⟨hfrom, hbefore⟩ := List.append_eq_nil_iff.1 h
  have hids : net.ids = [] := by rw [← List.take_append_drop _ net.ids, hbefore, hfrom]; rfl
  exact net.nodes_ne_nil (List.map_eq_nil_iff.1 hids)

/-- The accounts in an order are those of the network. -/
theorem mem_ids_of_mem_orderedFrom {first id : AccountId} (h : id ∈ net.orderedFrom first) :
    id ∈ net.ids := by
  rcases List.mem_append.1 h with hdrop | htake
  · exact List.mem_of_mem_drop hdrop
  · exact List.mem_of_mem_take htake

end Network

/-- A draft with neither name nor nodes is frozen under a fresh name of the operator and for nodes
of the network, of which there is at least one. -/
theorem Draft.freezeWith_fresh {d : Draft} {client : Client} {op : Operator}
    (hnodes : d.nodeIds = none) (hid : d.transactionId = none) (hop : client.operator = some op)
    (now : Time) (start : Timestamp) :
    ∃ nodes network, nodes ≠ [] ∧ (∀ id ∈ nodes, id ∈ network.ids) ∧
      d.freezeWith client now start =
        (.ok ({ d with nodeIds := some nodes, transactionId := some ⟨op.accountId, start⟩ }.freezeAs
          ⟨op.accountId, start⟩ nodes), { client with network := network }) := by
  have hfirst := client.network.advanced.orderedFrom_ne_nil
    (client.network.selectNode now).1.accountId
  refine ⟨_, client.network.advanced, hfirst,
    fun id hmem => client.network.advanced.mem_ids_of_mem_orderedFrom hmem, ?_⟩
  unfold freezeWith
  simp only [hnodes, hid, hop, Network.selectNode, setTransactionId, freeze]

/-! ### Sending -/

namespace Frozen

variable {d : Draft} {id : TransactionId} {nodes : List AccountId} {client : Client} {op : Operator}

/-- The body that was frozen for a node, which nobody has signed yet. -/
theorem bodyAt?_freezeAs {node : AccountId} {b : FrozenBody}
    (h : (d.freezeAs id nodes).bodyAt? node = some b) :
    b = ⟨node, Wire.TransactionBody.codec.encode (d.bodyFor id node), {}⟩ := by
  have hnode : b.node = node := by simpa using List.find?_some h
  obtain ⟨node', -, rfl⟩ := List.mem_map.1 (List.mem_of_find?_eq_some h)
  cases hnode
  rfl

/-- The operator signs what was just frozen, so it has been signed. -/
theorem signers_signedByOperator_freezeAs (hne : nodes ≠ []) (hop : client.operator = some op) :
    ((d.freezeAs id nodes).signedByOperator client).signers = [op.privateKey.publicKey] := by
  obtain ⟨node, rest, rfl⟩ := List.exists_cons_of_ne_nil hne
  have hunsigned : (d.freezeAs id (node :: rest)).contains op.privateKey.publicKey = false := by
    simp [contains, Draft.freezeAs, SignatureMap.contains, SignatureMap.get?]
  rw [signedByOperator, hop]
  simp only [hunsigned, Bool.false_eq_true, if_false]
  rfl

/-- Signing changes no node. -/
theorem nodeIds_signedByOperator (f : Frozen) (client : Client) :
    (f.signedByOperator client).nodeIds = f.nodeIds := by
  unfold signedByOperator
  split
  · rfl
  · split
    · rfl
    · simp [nodeIds, sign, signWith, Function.comp_def]

end Frozen

/-- What comes of sending a draft, under a name, for which the operator signed. -/
structure Draft.Sent (d : Draft) (op : Operator) (id : TransactionId) (transport : Transport σ)
    (start : Scene σ) (run : Run σ Submission) : Prop where
  /-- Some node is called. -/
  called : run.exchanges ≠ []
  /-- Each is sent its body with the operator's signature. -/
  sends : ∀ x ∈ run.exchanges, x.call.request =
    requestBytes (.submitTransaction (op.signed (d.bodyFor id x.call.node.accountId)))
  traced : transport.Traced .usual start.world run.exchanges
  world : run.scene.world = transport.after start.world run.exchanges
  /-- An acceptance is the result. -/
  accepted : ∀ x ∈ run.exchanges, x.Accepted → ∃ s, run.result = .ok s
  /-- The result is an acceptance, by a node that is known. -/
  ok : ∀ s, run.result = .ok s → s.transactionId = id ∧ s.nodeId ∈ run.network.ids ∧
    ∃ x ∈ run.exchanges, x.Accepted ∧ x.call.node.accountId = s.nodeId
  /-- Without one, the network failed the request, or an answer could not be read. -/
  error : ∀ e, run.result = .error e →
    e.isLedgerError = true ∨ (e = .codec .undecodable ∧ ∃ x ∈ run.exchanges, x.Unreadable)

/-- A request leaves the nodes of the network as they are. -/
theorem execute_ids {α : Type} (transport : Transport σ) (config : ClientConfig) (network : Network)
    (exec : Executable α) (options : ExecuteOptions σ) (scene : Scene σ) :
    (execute transport config network exec options scene).network.ids = network.ids := by
  obtain ⟨cursor, hmarked⟩ := execute_marked transport config network exec options scene
  rw [hmarked]
  exact congrArg (List.map Node.accountId) (network.marked_nodes _)

/-- What comes of sending a draft that was just frozen for nodes of the network. -/
theorem Draft.sent_of_freezeAs {d : Draft} {id : TransactionId} {nodes : List AccountId}
    (client : Client) {op : Operator} (hfrozen : (d.freezeAs id nodes).Reachable)
    (hne : nodes ≠ []) (hknown : ∀ node ∈ nodes, node ∈ client.network.ids)
    (hop : client.operator = some op) (hconfig : client.config = .default)
    (transport : Transport σ) (scene : Scene σ) :
    d.Sent op id transport scene ((d.freezeAs id nodes).execute client transport {} scene).2 := by
  -- The operator adds a signature, and neither a node nor a body.
  have hids : ((d.freezeAs id nodes).signedByOperator client).nodeIds = nodes := by
    rw [Frozen.nodeIds_signedByOperator]
    simp [Frozen.nodeIds, freezeAs, Function.comp_def]
  have hexecute : ((d.freezeAs id nodes).execute client transport {} scene).2 =
      execute transport .default client.network
        ((d.freezeAs id nodes).signedByOperator client).submission {} scene := by
    simp only [Frozen.execute, Frozen.signers_signedByOperator_freezeAs hne hop,
      List.cons_ne_self, if_false, Client.execute, hconfig]
  have hleft := execute_ids transport .default client.network
    ((d.freezeAs id nodes).signedByOperator client).submission {} scene
  obtain ⟨hended, hasked, htraced, hworld⟩ := execute_usual (.submission _)
    (congrArg some hids) hne hknown transport scene
  rw [← hexecute] at hleft hended hasked htraced hworld
  generalize ((d.freezeAs id nodes).execute client transport {} scene).2 = run at *
  -- So a call sends what was frozen for its node, and an answer to it has one result.
  have hsends : ∀ x ∈ run.exchanges, ∃ b, (d.freezeAs id nodes).Sends client.operator x.call b :=
    fun x hx => hfrozen.sends_of_request client (hasked x hx).2
  have hresult (x : Exchange) (hx : x ∈ run.exchanges) (response : Wire.Response) :
      ∃ hash, ((d.freezeAs id nodes).signedByOperator client).submission.result x.call.node
        response = .ok ⟨id, x.call.node.accountId, hash⟩ := by
    obtain ⟨b, hb⟩ := hsends x hx
    exact ⟨_, hfrozen.result_eq client hb response⟩
  refine ⟨hended.exchanges_ne_nil, fun x hx => ?_, htraced, hworld, ?_, fun s hs => ?_,
    fun e he => ?_⟩
  · -- What a call sends was frozen for its node, and the operator is the only one who signed it.
    obtain ⟨b, hb⟩ := hsends x hx
    have hbody := Frozen.bodyAt?_freezeAs hb.frozen
    rw [hb.request, hop, hbody]
    rfl
  · -- A call that is accepted is the last one, and its result is that of the request.
    rintro x hx ⟨bytes, response, outcome, decoded, accepted⟩
    have hverdict := (Verdict.ofSubmission_eq_finished_iff response).2 accepted
    obtain ⟨hash, hok⟩ := hresult x hx response
    exact ⟨_, (hended.decided.of_finished hx outcome decoded hverdict).trans hok⟩
  · -- The other way, a result comes from the last call, and names its node.
    have hdecided := hended.decided
    rw [hs] at hdecided
    obtain ⟨x, hx, bytes, response, outcome, decoded, verdict, hok⟩ := hdecided.of_ok
    obtain ⟨hash, hok'⟩ := hresult x hx response
    cases hok.symm.trans hok'
    refine ⟨rfl, ?_, x, hx, ⟨bytes, response, outcome, decoded,
      (Verdict.ofSubmission_eq_finished_iff response).1 verdict⟩, rfl⟩
    rw [hleft]
    exact hknown _ (hasked x hx).1
  · -- An error comes from the ledger or from an answer that could not be read, since a result never
    -- fails.
    rw [he] at hended
    rcases hended.error_cases with hledger | hcodec | ⟨x, hx, response, -, herror⟩
    · exact .inl hledger
    · exact .inr hcodec
    · obtain ⟨hash, hok⟩ := hresult x hx response
      rw [hok] at herror
      cases herror

/-- What comes of freezing a draft with neither name nor nodes for a client with an operator and the
default settings, and of sending it. -/
theorem Draft.freezeWith_sent {d : Draft} {client : Client} {op : Operator}
    (hnodes : d.nodeIds = none) (hid : d.transactionId = none) (hop : client.operator = some op)
    (hconfig : client.config = .default) (transport : Transport σ) (start : Timestamp)
    (scene : Scene σ) :
    ∃ frozen network,
      d.freezeWith client scene.now start = (.ok frozen, { client with network := network }) ∧
        d.Sent op ⟨op.accountId, start⟩ transport scene
          (frozen.execute { client with network := network } transport {} scene).2 := by
  obtain ⟨nodes, network, hne, hknown, hfreeze⟩ :=
    Draft.freezeWith_fresh hnodes hid hop scene.now start
  have hreachable := Frozen.Reachable.freeze (show Draft.freeze { d with
    nodeIds := some nodes, transactionId := some ⟨op.accountId, start⟩ } = .ok _ from rfl)
  have hsent := Draft.sent_of_freezeAs { client with network := network } hreachable hne hknown hop
    hconfig transport scene
  -- The name and the nodes of a draft are in no body.
  exact ⟨_, network, hfreeze, hsent.called, hsent.sends, hsent.traced, hsent.world,
    hsent.accepted, hsent.ok, hsent.error⟩

end LedgerClient
