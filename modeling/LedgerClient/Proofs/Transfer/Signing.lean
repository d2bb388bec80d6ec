import LedgerClient.Proofs.Wire.Binary
import LedgerClient.Transfer.Frozen

/-!
# `LedgerClient.Proofs.Transfer.Signing`: what signing leaves alone

A frozen transaction is only ever made by freezing a draft, and only
ever changed by adding a signature to all of its bodies. `Reachable`
says so, and two facts hold of everything that is reachable:

* the bytes for a node are those of the body that the node is meant to
  see (`Reachable.bytes_eq`), since nothing touches them;
* all bodies were signed under the same keys (`Reachable.keys_eq`),
  since no signature is added to one alone.

The second is why it may be asked of the transaction as a whole whether
a key has signed, although each body keeps its own map. So what the
operator's signature does can be said for each node by itself
(`Reachable.signedByOperator_bodyAt?`).
-/

set_option autoImplicit false

namespace LedgerClient

/-! ### One map of signatures -/

namespace SignatureMap

/-- A stored signature is found under its key, and nothing else changes. -/
theorem get?_insert (map : SignatureMap) (key key' : PublicKey) (signature : Signature) :
    (map.insert key signature).get? key' =
      if key' = key then some signature else map.get? key' := by
  obtain ⟨pairs⟩ := map
  -- The walk goes on while the keys are lower, and the key that is looked for may be the stored one
  -- or not.
  induction pairs with
  | nil =>
    by_cases h : key' = key
    · simp [insert, insertPair, get?, h]
    · simp [insert, insertPair, get?, h, Ne.symm h]
  | cons pair rest ih =>
    obtain ⟨k, s⟩ := pair
    simp only [insert, get?] at ih
    simp only [insert, get?, insertPair]
    by_cases hk : k = key
    · by_cases h : key' = key
      · simp [hk, h]
      · simp [hk, h, Ne.symm h]
    · by_cases hlt : key.bytes < k.bytes
      · by_cases h : key' = key
        · simp [hk, hlt, h]
        · simp [hk, hlt, h, Ne.symm h]
      · by_cases hk' : k = key'
        · subst hk'
          simp [hk, hlt]
        · simpa [hk, hlt, hk'] using ih

/-- A key has signed if it is one of the keys that have. -/
theorem contains_iff (map : SignatureMap) (key : PublicKey) :
    map.contains key = true ↔ key ∈ map.keys := by
  simp only [contains, get?, Option.isSome_map, List.find?_isSome, decide_eq_true_eq, keys,
    List.mem_map]

/-- Under which keys there are signatures is a matter of the keys alone. -/
theorem keys_insert_congr {map map' : SignatureMap} (h : map.keys = map'.keys) (key : PublicKey)
    (signature signature' : Signature) :
    (map.insert key signature).keys = (map'.insert key signature').keys := by
  obtain ⟨pairs⟩ := map
  obtain ⟨pairs'⟩ := map'
  -- Both maps are walked at once: where a signature goes depends on the keys that are passed.
  simp only [keys, insert] at h ⊢
  induction pairs generalizing pairs' with
  | nil =>
    cases pairs' with
    | nil => rfl
    | cons pair rest => simp at h
  | cons pair rest ih =>
    cases pairs' with
    | nil => simp at h
    | cons pair' rest' =>
      obtain ⟨k, s⟩ := pair
      obtain ⟨k', s'⟩ := pair'
      simp only [List.map_cons, List.cons.injEq] at h
      obtain ⟨rfl, hrest⟩ := h
      simp only [insertPair]
      by_cases hk : k = key
      · simp [hk, hrest]
      · by_cases hlt : key.bytes < k.bytes
        · simp [hk, hlt, hrest]
        · simp [hk, hlt, ih rest' hrest]

/-- The signatures with the operator's, which is only made if there is none under the operator's
key. -/
def signedBy (map : SignatureMap) (operator : Option Operator) (body : Bytes) : SignatureMap :=
  match operator with
  | none => map
  | some op =>
    if map.contains op.privateKey.publicKey then map
    else map.insert op.privateKey.publicKey (op.privateKey.sign body)

/-- Whoever has signed is left alone, and the operator has signed afterwards. -/
theorem get?_signedBy (map : SignatureMap) (operator : Option Operator) (body : Bytes)
    (key : PublicKey) : (map.signedBy operator body).get? key = (map.get? key).or
      (operator.bind fun op =>
        if key = op.privateKey.publicKey then some (op.privateKey.sign body) else none) := by
  -- Without an operator nothing is added, and the operator adds nothing where there is a signature
  -- already.
  cases operator with
  | none => simp [signedBy]
  | some op =>
    simp only [signedBy, Option.bind_some]
    by_cases hsigned : map.contains op.privateKey.publicKey
    · by_cases hkey : key = op.privateKey.publicKey
      · obtain ⟨signature, hsome⟩ := Option.isSome_iff_exists.1 hsigned
        simp [hsigned, hkey, hsome]
      · simp [hsigned, hkey]
    · simp only [hsigned, Bool.false_eq_true, if_false, get?_insert]
      by_cases hkey : key = op.privateKey.publicKey
      · have hnone : map.get? op.privateKey.publicKey = none := by
          simpa [contains] using hsigned
        simp [hkey, hnone]
      · simp [hkey]

end SignatureMap

/-! ### Every transaction that there is -/

/-- Freezing takes the name and the nodes of the draft, which must be there. -/
theorem Draft.freeze_eq_ok {d : Draft} {f : Frozen} (h : d.freeze = .ok f) :
    ∃ id nodes, d.transactionId = some id ∧ d.nodeIds = some nodes ∧ f = d.freezeAs id nodes := by
  unfold freeze at h
  split at h
  · cases h
  · cases h
  next id nodes hid hnodes =>
    cases h
    exact ⟨id, nodes, hid, hnodes, rfl⟩

namespace Frozen

/-- The frozen transactions that there are: a draft that was frozen, with signatures added to all
of its bodies. -/
inductive Reachable : Frozen → Prop
  | freeze {d : Draft} {f : Frozen} (frozen : d.freeze = .ok f) : Reachable f
  | signWith {f : Frozen} (reachable : Reachable f) (key : PublicKey)
      (signer : Bytes → Signature) : Reachable (f.signWith key signer)

/-- Freezing for a client is freezing some draft. -/
theorem Reachable.freezeWith {d : Draft} {client client' : Client} {now : Time}
    {start : Timestamp} {f : Frozen} (h : d.freezeWith client now start = (.ok f, client')) :
    f.Reachable := by
  unfold Draft.freezeWith at h
  simp only at h
  split at h
  · exact .freeze (Prod.mk.injEq .. ▸ h).1
  · exact .freeze (Prod.mk.injEq .. ▸ h).1
  · cases h

variable {f : Frozen}

/-- A key of this process signs. -/
theorem Reachable.sign (h : f.Reachable) (key : PrivateKey) : (f.sign key).Reachable :=
  .signWith h key.publicKey key.sign

/-- The operator signs. -/
theorem Reachable.signedByOperator (h : f.Reachable) (client : Client) :
    (f.signedByOperator client).Reachable := by
  unfold Frozen.signedByOperator
  split
  · exact h
  · split
    · exact h
    · exact h.sign _

/-- The operator's signature changes neither the draft nor the name. -/
theorem signedByOperator_fixed (f : Frozen) (client : Client) :
    (f.signedByOperator client).draft = f.draft ∧
      (f.signedByOperator client).transactionId = f.transactionId := by
  unfold Frozen.signedByOperator
  split
  · exact ⟨rfl, rfl⟩
  · split <;> exact ⟨rfl, rfl⟩

/-- The bytes for a node are those of the body that it is meant to see. -/
theorem Reachable.bytes_eq (h : f.Reachable) :
    ∀ b ∈ f.bodies, b.bytes = Wire.TransactionBody.codec.encode (f.body b.node) := by
  -- Freezing writes the bytes from the draft, and signing only touches the signatures.
  induction h with
  | freeze frozen =>
    obtain ⟨id, nodes, -, -, rfl⟩ := Draft.freeze_eq_ok frozen
    intro b hb
    obtain ⟨node, -, rfl⟩ := List.mem_map.1 hb
    rfl
  | signWith _ key signer ih =>
    intro b hb
    obtain ⟨b', hb', rfl⟩ := List.mem_map.1 hb
    exact ih b' hb'

/-- All bodies were signed under the same keys. -/
theorem Reachable.keys_eq (h : f.Reachable) :
    ∀ b ∈ f.bodies, ∀ b' ∈ f.bodies, b.signatures.keys = b'.signatures.keys := by
  -- All bodies start without signatures, and every signer signs all of them.
  induction h with
  | freeze frozen =>
    obtain ⟨id, nodes, -, -, rfl⟩ := Draft.freeze_eq_ok frozen
    intro b hb b' hb'
    obtain ⟨node, -, rfl⟩ := List.mem_map.1 hb
    obtain ⟨node', -, rfl⟩ := List.mem_map.1 hb'
    rfl
  | signWith _ key signer ih =>
    intro b hb b' hb'
    obtain ⟨c, hc, rfl⟩ := List.mem_map.1 hb
    obtain ⟨c', hc', rfl⟩ := List.mem_map.1 hb'
    exact SignatureMap.keys_insert_congr (ih c hc c' hc') key _ _

/-- A key has signed all bodies if it has signed any. -/
theorem Reachable.contains_eq (h : f.Reachable) {b : FrozenBody} (hb : b ∈ f.bodies)
    (key : PublicKey) : f.contains key = b.signatures.contains key := by
  rw [Bool.eq_iff_iff, contains, List.all_eq_true, SignatureMap.contains_iff]
  constructor
  · intro hall
    exact (SignatureMap.contains_iff b.signatures key).1 (hall b hb)
  · intro hkey b' hb'
    rw [SignatureMap.contains_iff, h.keys_eq b' hb' b hb]
    exact hkey

/-- Signing changes no body but by a signature over its own bytes. -/
theorem signWith_bodyAt? (f : Frozen) (key : PublicKey) (signer : Bytes → Signature)
    (node : AccountId) : (f.signWith key signer).bodyAt? node = (f.bodyAt? node).map fun b =>
      { b with signatures := b.signatures.insert key (signer b.bytes) } := by
  rw [bodyAt?, signWith, List.find?_map]
  rfl

/-- The operator's signature is added to each body that has none under the operator's key. -/
theorem Reachable.signedByOperator_bodyAt? (h : f.Reachable) (client : Client) (node : AccountId) :
    (f.signedByOperator client).bodyAt? node = (f.bodyAt? node).map fun b =>
      { b with signatures := b.signatures.signedBy client.operator b.bytes } := by
  unfold Frozen.signedByOperator SignatureMap.signedBy
  cases client.operator with
  | none => exact Option.map_id'.symm
  | some op =>
    -- The operator signs all bodies or none, so it is enough to look at the one for this node.
    cases hb : f.bodyAt? node with
    | none =>
      by_cases hsigned : f.contains op.privateKey.publicKey
      · simp only [hsigned, if_true, hb, Option.map_none]
      · simp only [hsigned, if_false, Bool.false_eq_true, Frozen.sign,
          signWith_bodyAt?, hb, Option.map_none]
    | some b =>
      have hcontains := h.contains_eq (List.mem_of_find?_eq_some hb) op.privateKey.publicKey
      by_cases hsigned : f.contains op.privateKey.publicKey
      · simp only [hsigned, hcontains ▸ hsigned, if_true, hb, Option.map_some]
      · simp only [hsigned, hcontains ▸ hsigned, if_false, Bool.false_eq_true,
          Frozen.sign, signWith_bodyAt?, hb, Option.map_some]

end Frozen

end LedgerClient
