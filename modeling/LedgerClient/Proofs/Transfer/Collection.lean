import LedgerClient.Proofs.Request.Submission

/-!
# `LedgerClient.Proofs.Transfer.Collection`: the signatures that were made, and no others

A frozen transaction passes from hand to hand: keys of this process
sign it, keys held elsewhere sign it, and executions have it signed by
an operator. `Signing` is one such thing and a history is a list of
them. All that a history leaves behind is who signed last under each
key, `lastSigner`: every body then holds what these signers made of its
own bytes, in the order of the keys.

The invariant is `Collected`. Its step is one lemma for whatever adds a
signature (`Collected.signWith`) and one for whatever adds none
(`Collected.idle`); which of the two an execution is depends on whether
the operator has signed all bodies, and `Collected.stored` says that it
has signed all of them or none. That the order of the signings is lost
comes from `SignatureMap.Ordered.ext`: two maps in order with the same
signatures are the same list of pairs, so the same bytes travel.
-/

set_option autoImplicit false

namespace LedgerClient

/-- A public key is its bytes. -/
theorem PublicKey.eq_of_bytes_eq {k k' : PublicKey} (h : k.bytes = k'.bytes) : k = k' := by
  obtain ⟨key⟩ := k
  obtain ⟨key'⟩ := k'
  rw [KeyBytes.eq_of_bytes_eq (show key.bytes = key'.bytes from h)]

/-! ### Maps in order -/

namespace SignatureMap

/-- The keys stand in the order of their bytes, each of them once. -/
def Ordered (map : SignatureMap) : Prop :=
  map.pairs.Pairwise fun pair pair' => pair.1.bytes < pair'.1.bytes

/-- What is stored is the new signature or was stored before. -/
theorem mem_insertPair {key : PublicKey} {signature : Signature}
    {pairs : List (PublicKey × Signature)} {pair : PublicKey × Signature}
    (h : pair ∈ insertPair key signature pairs) : pair = (key, signature) ∨ pair ∈ pairs := by
  -- The pair is stored where its key belongs, and every other pair keeps its place.
  induction pairs with
  | nil => exact .inl (List.mem_singleton.1 h)
  | cons first rest ih =>
    obtain ⟨k, s⟩ := first
    rw [insertPair] at h
    split at h
    · exact (List.mem_cons.1 h).imp_right (List.mem_cons_of_mem _)
    · split at h
      · exact List.mem_cons.1 h
      · rcases List.mem_cons.1 h with rfl | h
        · exact .inr List.mem_cons_self
        · exact (ih h).imp_right (List.mem_cons_of_mem _)

/-- Storing a signature keeps the order. -/
theorem Ordered.insert {map : SignatureMap} (h : map.Ordered) (key : PublicKey)
    (signature : Signature) : (map.insert key signature).Ordered := by
  obtain ⟨pairs⟩ := map
  unfold Ordered SignatureMap.insert at *
  induction pairs with
  | nil => exact List.pairwise_singleton _ _
  | cons first rest ih =>
    obtain ⟨k, s⟩ := first
    obtain ⟨hfirst, hrest⟩ := List.pairwise_cons.1 h
    simp only [insertPair]
    -- The new pair replaces the first one, goes in front of it, or goes somewhere behind it.
    split
    · next hk =>
      subst hk
      exact List.pairwise_cons.2 ⟨hfirst, hrest⟩
    · next hk =>
      split
      · next hlt =>
        refine List.pairwise_cons.2 ⟨fun pair hpair => ?_, h⟩
        rcases List.mem_cons.1 hpair with rfl | hpair
        · exact hlt
        · exact List.lt_trans hlt (hfirst pair hpair)
      · next hge =>
        refine List.pairwise_cons.2 ⟨fun pair hpair => ?_, ih hrest⟩
        rcases mem_insertPair hpair with rfl | hpair
        · -- The keys differ and the new one is not lower, so it is higher.
          exact Std.lt_of_le_of_ne (List.not_lt.1 hge) fun heq => hk (PublicKey.eq_of_bytes_eq heq)
        · exact hfirst pair hpair

/-- In a map in order, the signature that is found under a key is the one that is stored. -/
theorem Ordered.get?_eq_some_iff {map : SignatureMap} (h : map.Ordered) {key : PublicKey}
    {signature : Signature} :
    map.get? key = some signature ↔ (key, signature) ∈ map.pairs := by
  obtain ⟨pairs⟩ := map
  unfold Ordered get? at *
  induction pairs with
  | nil => simp
  | cons first rest ih =>
    obtain ⟨k, s⟩ := first
    obtain ⟨hfirst, hrest⟩ := List.pairwise_cons.1 h
    by_cases hk : k = key
    · subst hk
      -- All keys that follow are higher, so there is no second signature under this one.
      have hnot : (k, signature) ∉ rest := fun hmem =>
        List.lt_irrefl k.bytes (hfirst _ hmem)
      simp [hnot, eq_comm]
    · simpa [hk, Ne.symm hk] using ih hrest

/-- Maps in order under whose keys the same is found are the same. -/
theorem Ordered.ext {map map' : SignatureMap} (h : map.Ordered) (h' : map'.Ordered)
    (hget : ∀ key, map.get? key = map'.get? key) : map = map' := by
  -- Keys rise strictly, so no pair is there twice, and two orders of the same pairs are one.
  have hnodup {m : SignatureMap} (hm : m.Ordered) : m.pairs.Nodup := by
    refine List.Pairwise.imp (fun {pair pair'} hlt heq => ?_) hm
    rw [heq] at hlt
    exact List.lt_irrefl _ hlt
  have hperm : map.pairs.Perm map'.pairs := by
    refine (List.perm_ext_iff_of_nodup (hnodup h) (hnodup h')).2 fun ⟨key, signature⟩ => ?_
    rw [← h.get?_eq_some_iff, ← h'.get?_eq_some_iff, hget key]
  have hpairs : map.pairs = map'.pairs :=
    hperm.eq_of_pairwise (fun _ _ _ _ hlt hgt => absurd hgt (List.lt_asymm hlt)) h h'
  cases map
  cases map'
  exact congrArg _ hpairs

/-- What travels is in the order of the keys too. -/
theorem Ordered.toWire {map : SignatureMap} (h : map.Ordered) :
    map.toWire.Pairwise fun pair pair' => pair.publicKey.bytes < pair'.publicKey.bytes :=
  List.pairwise_map.2 h

end SignatureMap

/-! ### Histories of signings -/

/-- How signatures are made of bytes. -/
abbrev Signer := Bytes → Signature

/-- What may add signatures to a frozen transaction. -/
inductive Signing : Type 1
  /-- A key of this process signs. -/
  | sign (key : PrivateKey)
  /-- A key that is held elsewhere signs, in whatever way. -/
  | signWith (key : PublicKey) (signer : Signer)
  /-- The transaction is executed, however that ends. -/
  | execute {σ : Type} (client : Client) (transport : Transport σ) (options : ExecuteOptions σ)
      (scene : Scene σ)

namespace Signing

/-- The keys under which there may be a new signature. -/
def keys : Signing → List PublicKey
  | .sign key => [key.publicKey]
  | .signWith key _ => [key]
  | .execute client .. => client.operator.toList.map fun op => op.privateKey.publicKey

/-- Who signed last under a key, given who did before. An operator only signs where nobody did. -/
def signer (key : PublicKey) (earlier : Option Signer) : Signing → Option Signer
  | .sign key' => if key = key'.publicKey then some key'.sign else earlier
  | .signWith key' signer => if key = key' then some signer else earlier
  | .execute client .. => earlier.or (client.operator.bind fun op =>
      if key = op.privateKey.publicKey then some op.privateKey.sign else none)

end Signing

/-- Who signed last under a key. -/
def lastSigner (history : List Signing) (key : PublicKey) : Option Signer :=
  history.foldl (fun earlier step => step.signer key earlier) none

/-- One more signing. -/
theorem lastSigner_concat (history : List Signing) (step : Signing) (key : PublicKey) :
    lastSigner (history ++ [step]) key = step.signer key (lastSigner history key) := by
  rw [lastSigner, List.foldl_append]
  rfl

namespace Frozen

/-- The transaction after something that may have added signatures. -/
def after (f : Frozen) : Signing → Frozen
  | .sign key => f.sign key
  | .signWith key signer => f.signWith key signer
  | .execute client transport options scene => (f.execute client transport options scene).1

/-- The transaction after a history. -/
def afterAll (f : Frozen) (history : List Signing) : Frozen :=
  history.foldl after f

/-- Executing a transaction leaves it with the operator's signature. -/
theorem execute_fst {σ : Type} (f : Frozen) (client : Client) (transport : Transport σ)
    (options : ExecuteOptions σ) (scene : Scene σ) :
    (f.execute client transport options scene).1 = f.signedByOperator client := by
  unfold execute
  simp only
  split <;> rfl

/-- All bodies get a signature under one key, or none does. -/
theorem after_cases (f : Frozen) (step : Signing) :
    f.after step = f ∨ ∃ key ∈ step.keys, ∃ signer, f.after step = f.signWith key signer := by
  -- An execution is one of the two, for want of an operator or because the operator has signed.
  cases step with
  | sign key => exact .inr ⟨key.publicKey, List.mem_singleton_self _, key.sign, rfl⟩
  | signWith key signer => exact .inr ⟨key, List.mem_singleton_self _, signer, rfl⟩
  | execute client transport options scene =>
    rw [after, execute_fst, signedByOperator, Signing.keys]
    split
    · exact .inl rfl
    next op hoperator =>
      split
      · exact .inl rfl
      · refine .inr ⟨op.privateKey.publicKey, ?_, op.privateKey.sign, rfl⟩
        rw [hoperator]
        exact List.mem_singleton_self _

variable {f : Frozen}

/-- Nobody's signature is lost by a signing. -/
theorem contains_after {key : PublicKey} (h : f.contains key = true) (step : Signing) :
    (f.after step).contains key = true := by
  rcases f.after_cases step with heq | ⟨key', -, signer, heq⟩
  · rw [heq]
    exact h
  · rw [heq]
    simp only [contains, signWith, List.all_map, List.all_eq_true, Function.comp_apply,
      SignatureMap.contains, SignatureMap.get?_insert] at h ⊢
    intro b hb
    split
    · rfl
    · exact h b hb

/-- Nobody's signature is ever lost. -/
theorem contains_afterAll {key : PublicKey} (h : f.contains key = true) (history : List Signing) :
    (f.afterAll history).contains key = true := by
  induction history generalizing f with
  | nil => exact h
  | cons step history ih => exact ih (contains_after h step)

/-- Other keys' signatures stay what they are. -/
theorem get?_after {step : Signing} {key : PublicKey} (h : key ∉ step.keys) (f : Frozen) :
    (f.after step).bodies.map (fun b => b.signatures.get? key) =
      f.bodies.map fun b => b.signatures.get? key := by
  rcases f.after_cases step with heq | ⟨key', hkey', signer, heq⟩
  · rw [heq]
  · have hne : key ≠ key' := fun hkey => h (hkey ▸ hkey')
    rw [heq, signWith, List.map_map]
    refine List.map_congr_left fun b _ => ?_
    simp only [Function.comp_apply, SignatureMap.get?_insert, if_neg hne]

end Frozen

/-! ### What a history leaves behind -/

/-- The transaction is the one that was frozen, with the signatures that the history made. -/
structure Collected (start : Frozen) (history : List Signing) (f : Frozen) : Prop where
  /-- The content is the one that was frozen. -/
  draft : f.draft = start.draft
  /-- So is the name. -/
  transactionId : f.transactionId = start.transactionId
  /-- So are the nodes, and the bytes for each of them. -/
  bodies : f.bodies.map (fun b => (b.node, b.bytes)) =
    start.bodies.map fun b => (b.node, b.bytes)
  /-- Under each key there is what its last signer makes of the body's own bytes. -/
  stored : ∀ b ∈ f.bodies, ∀ key,
    b.signatures.get? key = (lastSigner history key).map fun signer => signer b.bytes
  /-- The keys are in order. -/
  ordered : ∀ b ∈ f.bodies, b.signatures.Ordered

namespace Collected

variable {start f : Frozen} {history : List Signing}

/-- A transaction that was just frozen has no signatures. -/
theorem freeze {d : Draft} (h : d.freeze = .ok start) : Collected start [] start := by
  obtain ⟨id, nodes, -, -, rfl⟩ := Draft.freeze_eq_ok h
  refine ⟨rfl, rfl, rfl, fun b hb key => ?_, fun b hb => ?_⟩
  all_goals
    obtain ⟨node, -, rfl⟩ := List.mem_map.1 hb
  · rfl
  · exact List.Pairwise.nil

/-- A body is signed under the keys that have a last signer, and under no others. -/
theorem signatures_contains (h : Collected start history f) {b : FrozenBody} (hb : b ∈ f.bodies)
    (key : PublicKey) : b.signatures.contains key = (lastSigner history key).isSome := by
  rw [SignatureMap.contains, h.stored b hb, Option.isSome_map]

/-- If there are bodies at all, a key has signed them all if it has a last signer, and otherwise
none. -/
theorem contains_eq (h : Collected start history f) (hne : f.bodies ≠ []) (key : PublicKey) :
    f.contains key = (lastSigner history key).isSome := by
  -- The bodies have the same signers, so any of them speaks for all.
  obtain ⟨b, hb⟩ := List.exists_mem_of_ne_nil _ hne
  rw [Bool.eq_iff_iff, Frozen.contains, List.all_eq_true]
  constructor
  · intro hall
    rw [← h.signatures_contains hb]
    exact hall b hb
  · intro hlast b' hb'
    rw [h.signatures_contains hb']
    exact hlast

/-- The signers are the keys that have a last signer. -/
theorem mem_signers_iff (h : Collected start history f) (hne : f.bodies ≠ []) (key : PublicKey) :
    key ∈ f.signers ↔ (lastSigner history key).isSome := by
  obtain ⟨first, rest, hbodies⟩ := List.exists_cons_of_ne_nil hne
  have hfirst : first ∈ f.bodies := by
    rw [hbodies]
    exact List.mem_cons_self
  rw [Frozen.signers, hbodies, ← SignatureMap.contains_iff, h.signatures_contains hfirst]

/-- What adds a signature to all bodies keeps the invariant. -/
theorem signWith (h : Collected start history f) {step : Signing} (key : PublicKey)
    (signer : Signer) (hafter : f.after step = f.signWith key signer)
    (hsigner : ∀ key', step.signer key' (lastSigner history key') =
      if key' = key then some signer else lastSigner history key') :
    Collected start (history ++ [step]) (f.after step) := by
  rw [hafter]
  -- Signing changes no bytes, and under each key it stores or leaves what the history says.
  refine ⟨h.draft, h.transactionId, ?_, fun b hb key' => ?_, fun b hb => ?_⟩
  · rw [← h.bodies, Frozen.signWith, List.map_map]
    rfl
  · obtain ⟨b', hb', rfl⟩ := List.mem_map.1 hb
    rw [lastSigner_concat, hsigner key', SignatureMap.get?_insert, h.stored b' hb']
    split <;> rfl
  · obtain ⟨b', hb', rfl⟩ := List.mem_map.1 hb
    exact (h.ordered b' hb').insert key _

/-- What adds no signature keeps the invariant. -/
theorem idle (h : Collected start history f) {step : Signing} (hafter : f.after step = f)
    (hsigner : f.bodies ≠ [] → ∀ key, step.signer key (lastSigner history key) =
      lastSigner history key) :
    Collected start (history ++ [step]) (f.after step) := by
  rw [hafter]
  refine ⟨h.draft, h.transactionId, h.bodies, fun b hb key => ?_, h.ordered⟩
  rw [lastSigner_concat, hsigner (List.ne_nil_of_mem hb), h.stored b hb]

/-- An execution keeps the invariant: its operator signs all bodies if no body has a signature
under the operator's key, and none otherwise. -/
theorem execute (h : Collected start history f) {σ : Type} (client : Client)
    (transport : Transport σ) (options : ExecuteOptions σ) (scene : Scene σ) :
    Collected start (history ++ [.execute client transport options scene])
      (f.after (.execute client transport options scene)) := by
  have hafter : f.after (.execute client transport options scene) = f.signedByOperator client :=
    f.execute_fst client transport options scene
  unfold Frozen.signedByOperator at hafter
  cases hoperator : client.operator with
  | none =>
    rw [hoperator] at hafter
    exact h.idle hafter fun _ key => by simp [Signing.signer, hoperator]
  | some op =>
    simp only [hoperator] at hafter
    by_cases hsigned : f.contains op.privateKey.publicKey = true
    · rw [if_pos hsigned] at hafter
      refine h.idle hafter fun hne key => ?_
      by_cases hkey : key = op.privateKey.publicKey
      · -- All bodies are signed under the operator's key, so it has a last signer, who stays.
        have hlast : (lastSigner history key).isSome := by
          rw [← h.contains_eq hne, hkey, hsigned]
        obtain ⟨signer, hsome⟩ := Option.isSome_iff_exists.1 hlast
        simp [Signing.signer, hsome]
      · simp [Signing.signer, hoperator, hkey]
    · rw [if_neg hsigned] at hafter
      refine h.signWith op.privateKey.publicKey op.privateKey.sign hafter fun key => ?_
      by_cases hkey : key = op.privateKey.publicKey
      · -- Some body is not signed under it, so there is no last signer: the operator becomes it.
        have hne : f.bodies ≠ [] := fun hnil => hsigned (by simp [Frozen.contains, hnil])
        have hlast : lastSigner history key = none := by
          rw [← Option.not_isSome_iff_eq_none, ← h.contains_eq hne, hkey]
          exact hsigned
        simp only [Signing.signer, hoperator, Option.bind_some, hlast, Option.none_or]
      · simp [Signing.signer, hoperator, hkey]

/-- One more signing, of whatever kind, keeps the invariant. -/
theorem after (h : Collected start history f) (step : Signing) :
    Collected start (history ++ [step]) (f.after step) := by
  cases step with
  | sign key => exact h.signWith key.publicKey key.sign rfl fun _ => rfl
  | signWith key signer => exact h.signWith key signer rfl fun _ => rfl
  | execute client transport options scene => exact h.execute client transport options scene

/-- More signings keep the invariant. -/
theorem afterAll (h : Collected start history f) (more : List Signing) :
    Collected start (history ++ more) (f.afterAll more) := by
  induction more generalizing history f with
  | nil =>
    rw [List.append_nil]
    exact h
  | cons step more ih =>
    have hnext := ih (h.after step)
    rwa [List.append_assoc] at hnext

/-- The last signers determine what is held for a body. -/
theorem body_eq {history' : List Signing} {f' : Frozen} (h : Collected start history f)
    (h' : Collected start history' f')
    (hlast : ∀ key, lastSigner history key = lastSigner history' key) {b b' : FrozenBody}
    (hb : b ∈ f.bodies) (hb' : b' ∈ f'.bodies) (hnode : b.node = b'.node)
    (hbytes : b.bytes = b'.bytes) : b = b' := by
  -- Maps in order are the same if the same is found under every key.
  have hsignatures : b.signatures = b'.signatures := by
    refine (h.ordered b hb).ext (h'.ordered b' hb') fun key => ?_
    rw [h.stored b hb, h'.stored b' hb', hlast key, hbytes]
  obtain ⟨node, bytes, signatures⟩ := b
  cases hnode
  cases hbytes
  cases hsignatures
  rfl

/-- The last signers determine the transaction: in which order they signed, and who had signed
before them, is lost. -/
theorem unique {history' : List Signing} {f' : Frozen} (h : Collected start history f)
    (h' : Collected start history' f')
    (hlast : ∀ key, lastSigner history key = lastSigner history' key) : f = f' := by
  -- Both have the same bodies up to signatures, and these are determined body by body.
  have hfixed := h.bodies.trans h'.bodies.symm
  have hbodies : f.bodies = f'.bodies := by
    refine List.ext_getElem (by simpa using congrArg List.length hfixed) fun i hi hi' => ?_
    have hsame :
        (f.bodies[i].node, f.bodies[i].bytes) = (f'.bodies[i].node, f'.bodies[i].bytes) := by
      simpa [hi, hi'] using congrArg (fun pairs => pairs[i]?) hfixed
    obtain ⟨hnode, hbytes⟩ := Prod.mk.inj hsame
    exact h.body_eq h' hlast (List.getElem_mem hi) (List.getElem_mem hi') hnode hbytes
  obtain ⟨draft, transactionId, bodies⟩ := f
  cases h.draft.trans h'.draft.symm
  cases h.transactionId.trans h'.transactionId.symm
  cases hbodies
  rfl

end Collected

/-- For every frozen transaction and every history of signings and executions: the content, the
name, the nodes and the bytes are those that were frozen, and under each key each body has what the
last signer made of the body's own bytes. All bodies are signed under the same keys, which are
those that the transaction as a whole says have signed it, and the signatures travel in the order
of the keys' bytes. A further step leaves the signatures under other keys alone, and none is ever
lost. Two histories with the same last signers lead to the same signed transactions, and to the
same digests, for all nodes. -/
theorem signatures_collected {d : Draft} {start : Frozen} (hstart : d.freeze = .ok start)
    (history : List Signing) :
    let f := start.afterAll history
    Collected start history f ∧
      (∀ b ∈ f.bodies, ∀ key, (f.contains key = true ↔ key ∈ f.signers) ∧
        (key ∈ f.signers ↔ b.signatures.contains key = true)) ∧
      (∀ b ∈ f.bodies, b.signatures.toWire.Pairwise fun pair pair' =>
        pair.publicKey.bytes < pair'.publicKey.bytes) ∧
      (∀ step : Signing, ∀ key ∉ step.keys,
        (f.after step).bodies.map (fun b => b.signatures.get? key) =
          f.bodies.map fun b => b.signatures.get? key) ∧
      (∀ key, f.contains key = true → ∀ more, (f.afterAll more).contains key = true) ∧
      ∀ history', (∀ key, lastSigner history key = lastSigner history' key) → ∀ node,
        f.signed node = (start.afterAll history').signed node ∧
          f.hash node = (start.afterAll history').hash node := by
  intro f
  have hcollected (steps : List Signing) : Collected start steps (start.afterAll steps) :=
    (Collected.freeze hstart).afterAll steps
  -- The invariant carries all of it: what follows is read off the last signers.
  have hf : Collected start history f := hcollected history
  refine ⟨hf, fun b hb key => ?_, fun b hb => (hf.ordered b hb).toWire,
    fun step key hkey => Frozen.get?_after hkey f,
    fun key hkey more => Frozen.contains_afterAll hkey more, fun history' hlast node => ?_⟩
  · have hne := List.ne_nil_of_mem hb
    have hmem := hf.mem_signers_iff hne key
    refine ⟨?_, ?_⟩
    · rw [hf.contains_eq hne key, hmem]
    · rw [hmem, hf.signatures_contains hb key]
  · have heq : f = start.afterAll history' := hf.unique (hcollected history') hlast
    rw [heq]
    exact ⟨rfl, rfl⟩

/-- A key that is thirty-two times the same byte. -/
def uniformKey (byte : UInt8) : PublicKey := ⟨⟨List.replicate 32 byte, List.length_replicate⟩⟩

/-- Two keys sign and the transaction is executed without an operator in between. -/
def oneOrder : List Signing :=
  [.signWith (uniformKey 9) fun bytes => ⟨bytes.take 2⟩,
    .execute (.ofNetwork .testnet) Simulation.ScriptedLedger.transport {} ⟨0, {}⟩,
    .signWith (uniformKey 7) fun bytes => ⟨bytes.take 3⟩]

/-- The same keys sign the other way round, one of them twice. -/
def otherOrder : List Signing :=
  [.signWith (uniformKey 9) fun _ => ⟨[]⟩,
    .signWith (uniformKey 7) fun bytes => ⟨bytes.take 3⟩,
    .signWith (uniformKey 9) fun bytes => ⟨bytes.take 2⟩]

/-- Both orders lead to the same signed transaction, in which the lower key stands first. -/
theorem signatures_collected_either_way :
    let start := twoNodeDraft.freezeAs ⟨⟨0, 0, 2⟩, ⟨1700000000, 0⟩⟩ [⟨0, 0, 3⟩, ⟨0, 0, 4⟩]
    twoNodeDraft.freeze = .ok start ∧
      (∀ key, lastSigner oneOrder key = lastSigner otherOrder key) ∧
      (start.afterAll oneOrder).signers = [uniformKey 7, uniformKey 9] ∧
      (start.afterAll oneOrder).signed ⟨0, 0, 4⟩ =
        (start.afterAll otherOrder).signed ⟨0, 0, 4⟩ := by
  intro start
  -- Only two keys have signed, and the last signer under each is the same in both orders.
  have hlast (key : PublicKey) : lastSigner oneOrder key = lastSigner otherOrder key := by
    by_cases h7 : key = uniformKey 7
    · subst h7
      rfl
    · by_cases h9 : key = uniformKey 9
      · subst h9
        rfl
      · simp [lastSigner, oneOrder, otherOrder, Signing.signer, h7, h9, Client.ofNetwork]
  have hstart : twoNodeDraft.freeze = .ok start := rfl
  obtain ⟨-, -, -, -, -, hsame⟩ := signatures_collected hstart oneOrder
  exact ⟨hstart, hlast, rfl, (hsame otherOrder hlast ⟨0, 0, 4⟩).1⟩

end LedgerClient
