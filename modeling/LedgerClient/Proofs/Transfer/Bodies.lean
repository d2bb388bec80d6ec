import LedgerClient.Proofs.Retry.Trace
import LedgerClient.Proofs.Transfer.Signing
import LedgerClient.Proofs.Wire.Exact

/-!
# `LedgerClient.Proofs.Transfer.Bodies`: one body for each node

A body names its node in a field of fixed width behind a field of fixed
width: the first thirty-six bytes are the transaction's name, the next
twenty-four are the node, and the rest, of whatever length, is the same
for all nodes (`TransactionBody.encode_eq`). So the bodies of one frozen
transaction have the same length and differ inside one window, and
there they differ as soon as the nodes do.

The bodies are looked up by their node. A node may be in the list
twice; its first body is found, and `Frozen.Reachable.bytes_eq` makes it
no matter which.
-/

set_option autoImplicit false

namespace LedgerClient

/-! ### Where a body names its node -/

/-- Bytes outside a window do not change with what is in it, if the width stays. -/
theorem Bytes.getElem?_window {front middle middle' back : Bytes}
    (hwidth : middle.length = middle'.length) {i : Nat}
    (houtside : i < front.length ∨ front.length + middle.length ≤ i) :
    (front ++ (middle ++ back))[i]? = (front ++ (middle' ++ back))[i]? := by
  rcases houtside with hbefore | hbehind
  · rw [List.getElem?_append_left hbefore, List.getElem?_append_left hbefore]
  · have hfront : front.length ≤ i := by omega
    rw [List.getElem?_append_right hfront, List.getElem?_append_right hfront,
      List.getElem?_append_right (by omega), List.getElem?_append_right (by omega), hwidth]

/-- An account takes twenty-four bytes. -/
theorem AccountId.length_encode (id : AccountId) : (AccountId.codec.encode id).length = 24 := by
  simp [AccountId.codec, tripleCodec, Wire.Codec.iso, Wire.Codec.refine, Wire.Codec.pair,
    Wire.Codec.uint64, Wire.Codec.fixed]

namespace Wire

/-- A transaction's name takes thirty-six bytes. -/
theorem TransactionId.length_encode (id : Wire.TransactionId) :
    (TransactionId.codec.encode id).length = 36 := by
  show (AccountId.codec.encode id.accountId ++ Timestamp.codec.encode id.validStart).length = 36
  rw [List.length_append, AccountId.length_encode]
  simp [Timestamp.codec, Codec.iso, Codec.refine, Codec.pair, Codec.int64, Codec.int32,
    Codec.fixed]

/-- The bytes of a body behind the node. -/
def TransactionBody.encodeRest (b : TransactionBody) : Bytes :=
  (Codec.uint64.pair (Codec.int64.pair (Codec.text.pair Operation.codec))).encode
    (b.transactionFee, b.validDurationSecs, b.memo, b.operation)

/-- A body is the name, the node and the rest. -/
theorem TransactionBody.encode_eq (b : TransactionBody) :
    TransactionBody.codec.encode b = TransactionId.codec.encode b.transactionId ++
      (AccountId.codec.encode b.nodeAccountId ++ b.encodeRest) :=
  rfl

end Wire

/-! ### The bodies for two nodes -/

/-- Two byte strings of the same length that agree outside the window of the node. -/
structure AgreeButForNode (bytes bytes' : Bytes) : Prop where
  length_eq : bytes.length = bytes'.length
  outside : ∀ i, i < 36 ∨ 60 ≤ i → bytes[i]? = bytes'[i]?

namespace Draft

variable (d : Draft) (id : TransactionId) (node node' : AccountId)

/-- What stands before and behind the node is the same in the bodies for all nodes. -/
theorem encode_bodyFor : Wire.TransactionBody.codec.encode (d.bodyFor id node') =
    Wire.TransactionId.codec.encode id.toWire ++
      (AccountId.codec.encode node' ++ (d.bodyFor id node).encodeRest) :=
  rfl

/-- So the bodies for two nodes differ in the node and in nothing else. -/
theorem bodyFor_agree : AgreeButForNode
    (Wire.TransactionBody.codec.encode (d.bodyFor id node))
    (Wire.TransactionBody.codec.encode (d.bodyFor id node')) := by
  have hwidth : (AccountId.codec.encode node).length = (AccountId.codec.encode node').length := by
    rw [AccountId.length_encode, AccountId.length_encode]
  rw [d.encode_bodyFor id node node, d.encode_bodyFor id node node']
  refine ⟨?_, fun i hi => Bytes.getElem?_window hwidth ?_⟩
  · simp only [List.length_append, hwidth]
  · rw [Wire.TransactionId.length_encode, AccountId.length_encode]
    exact hi

/-- They are the same if and only if the nodes are. -/
theorem encode_bodyFor_inj : Wire.TransactionBody.codec.encode (d.bodyFor id node) =
    Wire.TransactionBody.codec.encode (d.bodyFor id node') ↔ node = node' := by
  constructor
  · intro h
    -- The parts in front of the node and behind it are the same, so they cancel.
    rw [d.encode_bodyFor id node node, d.encode_bodyFor id node node'] at h
    have hnode := List.append_cancel_right (List.append_cancel_left h)
    exact AccountId.codec_lawful.exact.injective node node' ⟨trivial, trivial, trivial⟩
      ⟨trivial, trivial, trivial⟩ hnode
  · rintro rfl
    rfl

end Draft

/-! ### The bodies of a frozen transaction -/

/-- Freezing fails for want of a name or of nodes, and for nothing else. -/
theorem Draft.freeze_eq_error_iff (d : Draft) :
    (∃ e, d.freeze = .error e) ↔ d.transactionId = none ∨ d.nodeIds = none := by
  unfold freeze
  cases d.transactionId <;> cases d.nodeIds <;> simp

namespace Frozen

/-- There is nothing for a node that the transaction was not frozen for. -/
theorem bodyAt?_of_not_mem {f : Frozen} {node : AccountId} (h : node ∉ f.nodeIds) :
    f.bodyAt? node = none := by
  refine List.find?_eq_none.2 fun b hb hnode => h ?_
  exact List.mem_map.2 ⟨b, hb, by simpa using hnode⟩

/-- What is fixed for a node, just after freezing: the bytes of the body that the node is meant to
see, from which that body is read back. -/
structure Fixes (f : Frozen) (d : Draft) (id : TransactionId) (node : AccountId)
    (bytes : Bytes) : Prop where
  /-- The bytes are found under the node. -/
  found : (f.bodyAt? node).map FrozenBody.bytes = some bytes
  /-- They are those of the body that is built for the node. -/
  encoded : bytes = Wire.TransactionBody.codec.encode (f.body node)
  /-- That body names the node, and has everything else from the draft. -/
  body : f.body node =
    { transactionId := id.toWire
      nodeAccountId := node
      transactionFee := d.fee
      validDurationSecs := Int64.ofNat (d.validDuration / Draft.second)
      memo := d.memo
      operation := d.data.toOperation }
  /-- The node stands in the window. -/
  window : (bytes.drop 36).take 24 = AccountId.codec.encode node
  /-- The body is what is read. -/
  decoded : Wire.TransactionBody.codec.Fits (f.body node) →
    Wire.TransactionBody.codec.decoded bytes = .ok (f.body node)

/-- Freezing fixes what it should for whatever is found. -/
theorem fixes_of_freeze {d : Draft} {f : Frozen} {id : TransactionId} {node : AccountId}
    {b : FrozenBody} (hfreeze : d.freeze = .ok f) (hid : d.transactionId = some id)
    (hfound : f.bodyAt? node = some b) : f.Fixes d id node b.bytes := by
  have hencoded : b.bytes = Wire.TransactionBody.codec.encode (f.body node) := by
    have hnode : b.node = node := by simpa using List.find?_some hfound
    rw [(Reachable.freeze hfreeze).bytes_eq b (List.mem_of_find?_eq_some hfound), hnode]
  obtain ⟨id', nodes, hid', -, rfl⟩ := Draft.freeze_eq_ok hfreeze
  cases hid.symm.trans hid'
  -- From here on the body is a term of the draft, and its fields are read off.
  refine ⟨congrArg (Option.map FrozenBody.bytes) hfound, hencoded, rfl, ?_, fun hfits => ?_⟩
  · rw [hencoded, Wire.TransactionBody.encode_eq,
      List.drop_left' (Wire.TransactionId.length_encode _),
      List.take_left' (AccountId.length_encode _)]
    rfl
  · rw [hencoded, Wire.Codec.decoded_eq_ok_iff]
    exact Wire.TransactionBody.codec_lawful.decode?_encode hfits

end Frozen

/-- Freezing fails for want of a name or of nodes, and for nothing else. With both, and however
often a node is in the list: each node of the list has the bytes of the body that is built for it,
which names the node, has everything else from the draft, and is read back from the bytes. The
bytes for two nodes have the same length and agree outside the twenty-four that name the node, and
they are the same only if the nodes are. For any other node there are no bytes, no signatures and
no signed transaction. -/
theorem bodies_differ_in_node (d : Draft) :
    ((∃ e, d.freeze = .error e) ↔ d.transactionId = none ∨ d.nodeIds = none) ∧
      ∀ id nodes, d.transactionId = some id → d.nodeIds = some nodes →
        ∃ f, d.freeze = .ok f ∧
          (∀ node ∈ nodes, ∃ bytes, f.Fixes d id node bytes) ∧
          (∀ node node' bytes bytes', (f.bodyAt? node).map FrozenBody.bytes = some bytes →
            (f.bodyAt? node').map FrozenBody.bytes = some bytes' →
              AgreeButForNode bytes bytes' ∧ (bytes = bytes' ↔ node = node')) ∧
          ∀ node ∉ nodes, f.bodyAt? node = none ∧
            f.signed node = .error (.invalidArgument (.unfrozenNode node)) := by
  refine ⟨d.freeze_eq_error_iff, fun id nodes hid hnodes => ?_⟩
  -- With a name and nodes freezing cannot fail, and the rest is about what it returns.
  have hfreeze : d.freeze = .ok (d.freezeAs id nodes) := by
    rw [Draft.freeze, hid, hnodes]
  have hnodeIds : (d.freezeAs id nodes).nodeIds = nodes := by
    simp [Frozen.nodeIds, Draft.freezeAs, Function.comp_def]
  refine ⟨d.freezeAs id nodes, hfreeze, fun node hnode => ?_, ?_, fun node hnode => ?_⟩
  · obtain ⟨b, hfound, -, -⟩ := Frozen.bodyAt?_of_mem (hnodeIds.symm ▸ hnode)
    exact ⟨b.bytes, Frozen.fixes_of_freeze hfreeze hid hfound⟩
  · intro node node' bytes bytes' hbytes hbytes'
    obtain ⟨b, hfound, rfl⟩ := Option.map_eq_some_iff.1 hbytes
    obtain ⟨b', hfound', rfl⟩ := Option.map_eq_some_iff.1 hbytes'
    rw [(Frozen.fixes_of_freeze hfreeze hid hfound).encoded,
      (Frozen.fixes_of_freeze hfreeze hid hfound').encoded]
    exact ⟨d.bodyFor_agree id node node', d.encode_bodyFor_inj id node node'⟩
  · have hnone := Frozen.bodyAt?_of_not_mem (hnodeIds.symm ▸ hnode)
    refine ⟨hnone, ?_⟩
    rw [Frozen.signed, hnone]

/-- A draft with a memo, one of whose nodes is in the list twice. -/
def repeatedNodeDraft : Draft where
  memo := "twice"
  nodeIds := some [⟨0, 0, 3⟩, ⟨0, 0, 4⟩, ⟨0, 0, 3⟩]
  transactionId := some ⟨⟨0, 0, 2⟩, ⟨1700000000, 0⟩⟩

/-- The draft is frozen, and what is read from the bytes for the first node is the body with that
node. The bytes for the two nodes differ, and there are none for a third. -/
theorem bodies_differ_in_node_repeated :
    ∃ f, repeatedNodeDraft.freeze = .ok f ∧
      ∃ bytes bytes', (f.bodyAt? ⟨0, 0, 3⟩).map FrozenBody.bytes = some bytes ∧
        (f.bodyAt? ⟨0, 0, 4⟩).map FrozenBody.bytes = some bytes' ∧
        Wire.TransactionBody.codec.decoded bytes = .ok (f.body ⟨0, 0, 3⟩) ∧
        AgreeButForNode bytes bytes' ∧ bytes ≠ bytes' ∧ f.bodyAt? ⟨0, 0, 5⟩ = none := by
  obtain ⟨f, hfreeze, hfixes, hagree, hother⟩ :=
    (bodies_differ_in_node repeatedNodeDraft).2 _ _ rfl rfl
  obtain ⟨bytes, hbytes⟩ := hfixes ⟨0, 0, 3⟩ (by decide)
  obtain ⟨bytes', hbytes'⟩ := hfixes ⟨0, 0, 4⟩ (by decide)
  obtain ⟨houtside, heq⟩ := hagree _ _ _ _ hbytes.found hbytes'.found
  -- Every length in the body is small enough to be announced, so it has a form and is read back.
  have hfits : Wire.TransactionBody.codec.Fits (f.body ⟨0, 0, 3⟩) := by
    rw [hbytes.body, Wire.TransactionBody.codec_fits_iff]
    exact ⟨by decide, by decide, by decide, List.forall_mem_nil _⟩
  refine ⟨f, hfreeze, bytes, bytes', hbytes.found, hbytes'.found, hbytes.decoded hfits, houtside,
    fun h => ?_, (hother ⟨0, 0, 5⟩ (by decide)).1⟩
  exact absurd (heq.1 h) (by decide)

end LedgerClient
