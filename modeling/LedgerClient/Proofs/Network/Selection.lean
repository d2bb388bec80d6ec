import LedgerClient.Network.Selection
import Mathlib.Data.List.Rotate

/-!
# `LedgerClient.Proofs.Network.Selection`: what a selection chooses from

A selection is made over some nodes and never leaves them. The nodes
are those that the cursor offers, for a request that may go anywhere, or
the ones with the given accounts, in the order in which they are given.

* `Selection.next_mem` and `Selection.next_candidates`: whatever the
  health of the nodes, a choice is a candidate, and leaves the
  candidates as they are.
* `Network.turn_eq_rotate`: the cursor offers all nodes of the network,
  rotated, if there is room for counting that many places from it on
  (`Network.HasRoom`). Otherwise the count of places starts over in the
  middle of the list, and some nodes are not offered. This is so for no
  more than the last few of the `2 ^ 64` cursors.
* `Network.selectionFor_eq_ok`: the candidates of a selection over some
  accounts are nodes of the network, and their accounts are the given
  ones.
* `Network.selectionFor_eq_error`: no such selection is made only if the
  accounts are at fault.
-/

set_option autoImplicit false

namespace LedgerClient

namespace Selection

variable (s : Selection) (healthy : AccountId → Bool)

/-- A candidate that is not tried yet is a candidate. -/
theorem mem_of_mem_untried {node : Node} (h : node ∈ s.untried) : node ∈ s.candidates :=
  (List.mem_filter.1 h).1

/-- The choice falls on a candidate, whether one is left in this round or not. -/
theorem choice_mem : s.choice healthy ∈ s.candidates := by
  unfold choice
  split
  · exact s.mem_of_mem_untried (List.mem_of_find?_eq_some ‹_›)
  · cases hu : s.untried with
    | nil => exact List.head_mem s.candidates_ne_nil
    | cons node rest => exact s.mem_of_mem_untried (by simp [hu])

/-- The next node is a candidate. -/
theorem next_mem : (s.next healthy).1 ∈ s.candidates := by
  unfold next
  simp only
  split
  · exact s.newRound.choice_mem healthy
  · exact s.choice_mem healthy

/-- A choice leaves the candidates as they are. -/
theorem next_candidates : (s.next healthy).2.candidates = s.candidates := by
  unfold next newRound
  simp only
  split <;> rfl

end Selection

namespace Network

/-! ### The nodes that the cursor offers -/

/-- The nodes can be counted off from the cursor on before the count of places starts over, or it
makes no difference that it does, since a number of whole rounds fits before. -/
def HasRoom (net : Network) : Prop :=
  net.cursor.toNat + net.nodes.length ≤ UInt64.size ∨ net.nodes.length ∣ UInt64.size

instance (net : Network) : Decidable net.HasRoom :=
  inferInstanceAs (Decidable (_ ∨ _))

section
variable {net : Network}

/-- The cursor offers nodes of the network only. -/
theorem mem_nodes_of_mem_turn {node : Node} (h : node ∈ net.turn) : node ∈ net.nodes := by
  obtain ⟨i, -, rfl⟩ := List.mem_map.1 h
  exact List.get_mem _ _

/-- With room, the places from the cursor on are those of the list, going around. -/
theorem HasRoom.place (h : net.HasRoom) {i : Nat} (hi : i < net.nodes.length) :
    (net.cursor + UInt64.ofNat i).toNat % net.nodes.length =
      (i + net.cursor.toNat) % net.nodes.length := by
  have hsum : (net.cursor + UInt64.ofNat i).toNat = (i + net.cursor.toNat) % UInt64.size := by
    rw [UInt64.toNat_add, UInt64.toNat_ofNat', Nat.add_mod_mod, Nat.add_comm]
  rw [hsum]
  rcases h with hroom | hwhole
  · have hlt : i + net.cursor.toNat < UInt64.size := by omega
    rw [Nat.mod_eq_of_lt hlt]
  · -- The places that were left out are some whole rounds.
    rw [Nat.mod_mod_of_dvd _ hwhole]

/-- With room, the cursor offers the nodes of the network, rotated. -/
theorem turn_eq_rotate (h : net.HasRoom) : net.turn = net.nodes.rotate net.cursor.toNat := by
  refine List.ext_getElem (by simp [turn]) ?_
  intro i hi _
  have hlt : i < net.nodes.length := by simpa [turn] using hi
  simp only [turn, List.getElem_map, List.getElem_range, nodeAt, List.get_eq_getElem, h.place hlt,
    List.getElem_rotate]

/-- With room, the cursor offers each node once. -/
theorem turn_perm (h : net.HasRoom) : net.turn.Perm net.nodes := by
  rw [turn_eq_rotate h]
  exact List.rotate_perm _ _

end

/-! ### The nodes that are asked for -/

/-- The node with an account has that account, and is one of the nodes. -/
theorem node?_eq_some {net : Network} {id : AccountId} {node : Node}
    (h : net.node? id = some node) : node ∈ net.nodes ∧ node.accountId = id :=
  ⟨List.mem_of_find?_eq_some h, by simpa using List.find?_some h⟩

/-- The nodes with the given accounts are nodes of the network, one for each account. -/
theorem nodesFor_eq_ok {net : Network} {ids : List AccountId} {nodes : List Node}
    (h : net.nodesFor ids = .ok nodes) :
    (∀ node ∈ nodes, node ∈ net.nodes) ∧ nodes.map Node.accountId = ids := by
  -- The accounts are looked up one after the other, and one that is not found stops it all.
  induction ids generalizing nodes with
  | nil =>
    cases h
    exact ⟨nofun, rfl⟩
  | cons id ids ih =>
    rw [nodesFor] at h
    cases hn : net.node? id with
    | none => simp [hn, bind, Except.bind] at h
    | some node =>
      cases hr : net.nodesFor ids with
      | error e => simp [hn, hr, bind, Except.bind] at h
      | ok rest =>
        simp only [hn, hr, bind, Except.bind, pure, Except.pure, Except.ok.injEq] at h
        subst h
        obtain ⟨hmem, hid⟩ := node?_eq_some hn
        obtain ⟨hrest, hids⟩ := ih hr
        exact ⟨List.forall_mem_cons.2 ⟨hmem, hrest⟩, by rw [List.map_cons, hid, hids]⟩

/-- A selection over some accounts has handed out nothing yet. Its candidates are nodes of the
network, one for each account, in the same order. -/
theorem selectionFor_eq_ok {net : Network} {ids : List AccountId} {s : Selection}
    (h : net.selectionFor ids = .ok s) :
    (∀ node ∈ s.candidates, node ∈ net.nodes) ∧ s.candidates.map Node.accountId = ids ∧
      s.tried = [] ∧ s.last = none ∧ s.wraps = 0 := by
  rw [selectionFor] at h
  cases hn : net.nodesFor ids with
  | error e => simp [hn, bind, Except.bind] at h
  | ok nodes =>
    simp only [hn, bind, Except.bind] at h
    split at h
    · cases h
    · cases h
      obtain ⟨hmem, hids⟩ := nodesFor_eq_ok hn
      exact ⟨hmem, hids, rfl, rfl, rfl⟩

/-- The nodes for some accounts are only refused for an account that no node has. -/
theorem nodesFor_eq_error {net : Network} {ids : List AccountId} {e : Error}
    (h : net.nodesFor ids = .error e) :
    ∃ id ∈ ids, net.node? id = none ∧ e = .invalidArgument (.foreignNode id) := by
  induction ids with
  | nil => cases h
  | cons id ids ih =>
    rw [nodesFor] at h
    cases hn : net.node? id with
    | none =>
      simp only [hn, bind, Except.bind, Except.error.injEq] at h
      exact ⟨id, List.mem_cons_self, hn, h.symm⟩
    | some node =>
      -- This account has a node, so it is one of the others that has none.
      cases hr : net.nodesFor ids with
      | error e' =>
        simp only [hn, hr, bind, Except.bind, Except.error.injEq] at h
        obtain ⟨id', hmem, hnone, he⟩ := ih (h ▸ hr)
        exact ⟨id', List.mem_cons_of_mem id hmem, hnone, he⟩
      | ok rest => simp [hn, hr, bind, Except.bind, pure, Except.pure] at h

/-- A selection is only refused for what the caller gave. -/
theorem selectionFor_eq_error {net : Network} {ids : List AccountId} {e : Error}
    (h : net.selectionFor ids = .error e) : ∃ fault, e = .invalidArgument fault := by
  rw [selectionFor] at h
  cases hn : net.nodesFor ids with
  | error e' =>
    simp only [hn, bind, Except.bind, Except.error.injEq] at h
    obtain ⟨id, -, -, he⟩ := nodesFor_eq_error hn
    exact ⟨_, h ▸ he⟩
  | ok nodes =>
    simp only [hn, bind, Except.bind] at h
    split at h
    · cases h
      exact ⟨_, rfl⟩
    · cases h

end Network

end LedgerClient
