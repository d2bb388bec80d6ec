import LedgerClient.Proofs.Network.Health

/-!
# `LedgerClient.Proofs.Network.RoundRobin`: picks that go round

A request that may go to any node takes the next one in turn, either by
itself or as the first of a new selection. Both are the same pick: of
the nodes that the cursor offers, it falls on the first healthy one, or
on the first of all if none is healthy (`preferred?`), and it moves the
cursor on by one (`Moment.pick_eq`).

So as long as nobody's health changes, pick number `i` of a window falls
on the preferred node of one list, rotated by `i`
(`Moment.picks_eq_map`). What is fair about that is a matter of lists:
the rotations of a list begin with each of its items once
(`heads_of_rotations`), and a node that is healthy is preferred wherever
it comes first.

The places have 64 bits. Among `n` nodes, pick number `i` looks at no
place beyond `cursor + i + n - 1`, so a window of `n` picks stays below
`2 ^ 64` if `cursor + 2 * n - 1` is no more than that. A window in which
the places start over may leave out some nodes and repeat others.
-/

set_option autoImplicit false

namespace LedgerClient

namespace Network

/-! ### The preferred node of a list -/

/-- The first healthy node of a list, or the first of all if none is healthy. -/
def preferred? (healthy : AccountId → Bool) (nodes : List Node) : Option Node :=
  (nodes.find? fun node => healthy node.accountId).or nodes.head?

section
variable {healthy : AccountId → Bool} {nodes : List Node} {node : Node}

/-- A preferred node is one of the nodes. -/
theorem mem_of_preferred? (h : preferred? healthy nodes = some node) : node ∈ nodes := by
  rcases Option.or_eq_some_iff.1 h with hfind | ⟨-, hhead⟩
  · exact List.mem_of_find?_eq_some hfind
  · exact List.mem_of_head? hhead

/-- A preferred node is unhealthy only if all are. -/
theorem unhealthy_of_preferred? (h : preferred? healthy nodes = some node)
    (hnode : healthy node.accountId = false) :
    ∀ other ∈ nodes, healthy other.accountId = false := by
  unfold preferred? at h
  cases hfind : nodes.find? fun node => healthy node.accountId with
  | none => simpa using List.find?_eq_none.1 hfind
  | some found =>
    rw [hfind, Option.some_or] at h
    cases h
    have hhealthy := List.find?_some hfind
    rw [hnode] at hhealthy
    cases hhealthy

/-- The first node is preferred if it is healthy, and if none is. -/
theorem preferred?_eq_head? (hhead : nodes.head? = some node)
    (h : healthy node.accountId = true ∨ ∀ other ∈ nodes, healthy other.accountId = false) :
    preferred? healthy nodes = some node := by
  obtain ⟨rest, rfl⟩ := List.head?_eq_some_iff.1 hhead
  unfold preferred?
  rcases h with hhealthy | hnone
  · simp [hhealthy]
  · rw [List.find?_eq_none.2 (by simpa using hnone), Option.none_or, hhead]

/-- Only the health of the nodes of the list matters. -/
theorem preferred?_congr {healthy' : AccountId → Bool}
    (h : ∀ node ∈ nodes, healthy node.accountId = healthy' node.accountId) :
    preferred? healthy nodes = preferred? healthy' nodes := by
  have hfind : (nodes.find? fun node => healthy node.accountId) =
      nodes.find? fun node => healthy' node.accountId := by
    induction nodes with
    | nil => rfl
    | cons node nodes ih =>
      obtain ⟨hnode, hnodes⟩ := List.forall_mem_cons.1 h
      rw [List.find?_cons, List.find?_cons, hnode, ih hnodes]
  rw [preferred?, hfind, preferred?]

end

/-- The node that is taken in turn is the preferred one from the cursor on. -/
theorem preferred?_turn (net : Network) (now : Time) :
    preferred? (net.isHealthy now) net.turn = some (net.selectNode now).1 := by
  unfold preferred? selectNode
  rw [List.head?_eq_some_head net.turn_ne_nil]
  cases net.turn.find? _ <;> rfl

end Network

/-- The first choice of a selection is the preferred one of its candidates. -/
theorem Selection.preferred?_next {s : Selection} (htried : s.tried = [])
    (healthy : AccountId → Bool) :
    Network.preferred? healthy s.candidates = some (s.next healthy).1 := by
  have hopen : s.exhausted = false := by
    rw [exhausted, List.all_eq_false]
    exact ⟨_, List.head_mem s.candidates_ne_nil, by simp [htried]⟩
  have huntried : s.untried = s.candidates := by simp [untried, htried]
  have hnext : (s.next healthy).1 = s.choice healthy := by simp [next, hopen]
  rw [hnext, Network.preferred?, choice, huntried, List.head?_eq_some_head s.candidates_ne_nil]
  cases s.candidates.find? _ <;> rfl

namespace Network

/-! ### Rotations -/

/-- The rotations of a list begin with its items, one after the other. -/
theorem heads_of_rotations {α : Type} (xs : List α) :
    (List.range xs.length).map (fun i => (xs.rotate i).head?) = xs.map some := by
  refine List.ext_getElem (by simp) fun i hi hi' => ?_
  have hlt : i < xs.length := by simpa using hi
  rw [List.getElem_map, List.getElem_range, List.getElem_map, List.head?_rotate hlt,
    List.getElem?_eq_getElem hlt]

/-- What is preferred when each of some nodes has its turn once. -/
def window (healthy : AccountId → Bool) (nodes : List Node) : List (Option Node) :=
  (List.range nodes.length).map fun i => preferred? healthy (nodes.rotate i)

section
variable {healthy : AccountId → Bool} {nodes : List Node} {node : Node}

/-- A healthy node is preferred when it comes first. -/
theorem mem_window_of_healthy (hmem : node ∈ nodes) (hnode : healthy node.accountId = true) :
    some node ∈ window healthy nodes := by
  have hhead : some node ∈ (List.range nodes.length).map fun i => (nodes.rotate i).head? := by
    rw [heads_of_rotations]
    exact List.mem_map_of_mem hmem
  obtain ⟨i, hi, hfirst⟩ := List.mem_map.1 hhead
  exact List.mem_map.2 ⟨i, hi, preferred?_eq_head? hfirst (.inl hnode)⟩

/-- An unhealthy node is only preferred if there is no healthy one. -/
theorem healthy_of_mem_window (hsome : ∃ other ∈ nodes, healthy other.accountId = true)
    (h : some node ∈ window healthy nodes) : healthy node.accountId = true := by
  obtain ⟨other, hmem, hother⟩ := hsome
  obtain ⟨i, -, hpreferred⟩ := List.mem_map.1 h
  cases hnode : healthy node.accountId with
  | true => rfl
  | false =>
    have hnone := unhealthy_of_preferred? hpreferred hnode other (List.mem_rotate.2 hmem)
    rw [hother] at hnone
    cases hnone

/-- If there is nothing to choose, everybody has one turn, in order. -/
theorem window_eq_map_some (h : (∀ other ∈ nodes, healthy other.accountId = true) ∨
    ∀ other ∈ nodes, healthy other.accountId = false) : window healthy nodes = nodes.map some := by
  rw [← heads_of_rotations, window]
  refine List.map_congr_left fun i hi => ?_
  have hlt : i < nodes.length := List.mem_range.1 hi
  have hhead : (nodes.rotate i).head? = some nodes[i] := by
    rw [List.head?_rotate hlt, List.getElem?_eq_getElem hlt]
  rw [hhead]
  refine preferred?_eq_head? hhead (h.imp (fun hall => ?_) fun hall other hother => ?_)
  · exact hall _ (List.getElem_mem hlt)
  · exact hall other (List.mem_rotate.1 hother)

end

/-- If there is room from the next cursor on, it offers the same nodes, rotated by one. -/
theorem turn_advanced {net : Network}
    (h : net.cursor.toNat + 1 + net.nodes.length ≤ UInt64.size) :
    net.advanced.cursor.toNat = net.cursor.toNat + 1 ∧ net.advanced.turn = net.turn.rotate 1 := by
  have hpos := List.length_pos_iff.2 net.nodes_ne_nil
  have hcursor : net.advanced.cursor.toNat = net.cursor.toNat + 1 := by
    show (net.cursor + 1).toNat = _
    rw [UInt64.toNat_add]
    exact Nat.mod_eq_of_lt (show net.cursor.toNat + 1 < UInt64.size by omega)
  -- Both cursors have room, so each offers all nodes, rotated to its own place.
  have hroom : net.HasRoom := .inl (by omega)
  have hroom' : net.advanced.HasRoom := by
    refine .inl ?_
    rw [hcursor]
    exact h
  refine ⟨hcursor, ?_⟩
  rw [turn_eq_rotate hroom, turn_eq_rotate hroom', hcursor, List.rotate_rotate]
  rfl

/-! ### Picks -/

/-- The ways to take the next node in turn: by itself, or as the first choice of a selection. -/
inductive Pick where
  | node
  | selection
deriving DecidableEq, Repr

/-- What happens to a network that nodes are picked from. -/
inductive Traffic where
  | pick (kind : Pick)
  | change (c : Change)

namespace Moment

/-- The node that is picked, and the moment after that. -/
def pick (m : Moment) : Pick → Node × Moment
  | .node =>
    let (node, network) := m.network.selectNode m.now
    (node, { m with network := network })
  | .selection =>
    let (s, network) := m.network.selection
    ((s.next (network.isHealthy m.now)).1, { m with network := network })

/-- The picks that are made as some things happen, each with its moment. -/
def picks (m : Moment) : List Traffic → List Choice
  | [] => []
  | .pick kind :: traffic => ⟨(m.pick kind).1, m⟩ :: (m.pick kind).2.picks traffic
  | .change c :: traffic => (m.change c).picks traffic

section
variable (m : Moment)

/-- In whichever way a node is picked, it is the preferred one from the cursor on, and the cursor
moves on by one. -/
theorem pick_eq (kind : Pick) :
    preferred? m.isHealthy m.network.turn = some (m.pick kind).1 ∧
      (m.pick kind).2 = { m with network := m.network.advanced } := by
  cases kind with
  | node => exact ⟨m.network.preferred?_turn m.now, rfl⟩
  | selection => exact ⟨Selection.preferred?_next (s := m.network.selection.1) rfl _, rfl⟩

/-- What happens to nodes moves no cursor. -/
theorem change_turn (c : Change) : (m.change c).network.turn = m.network.turn ∧
    (m.change c).network.cursor = m.network.cursor := by
  cases c <;> exact ⟨rfl, rfl⟩

end

/-- As long as nobody's health changes and there is room for all the places that are looked at, pick
number `i` falls on the preferred one of the nodes that the cursor offers, rotated by `i`. -/
theorem picks_eq_map {m : Moment} {traffic : List Traffic} {healthy : AccountId → Bool}
    (hroom : m.network.cursor.toNat + (m.picks traffic).length + m.network.nodes.length ≤
      UInt64.size + 1)
    (hsteady : ∀ c ∈ m.picks traffic, ∀ node ∈ m.network.nodes,
      c.moment.isHealthy node.accountId = healthy node.accountId) :
    (m.picks traffic).map (fun c => some c.node) =
      (List.range (m.picks traffic).length).map fun i =>
        preferred? healthy (m.network.turn.rotate i) := by
  induction traffic generalizing m with
  | nil => rfl
  | cons first traffic ih =>
    cases first with
    | change c =>
      -- A change is no pick, and moves no cursor.
      have hrest := ih (m := m.change c)
      rw [(m.change_turn c).1, (m.change_turn c).2, m.change_nodes c] at hrest
      exact hrest hroom hsteady
    | pick kind =>
      obtain ⟨hnode, hafter⟩ := m.pick_eq kind
      rw [picks, hafter] at hroom hsteady ⊢
      obtain ⟨hfirst, hlater⟩ := List.forall_mem_cons.1 hsteady
      rw [List.length_cons] at hroom
      -- Only the health of the nodes that are offered matters to the first pick.
      have hpick : some (m.pick kind).1 = preferred? healthy (m.network.turn.rotate 0) := by
        rw [← hnode, List.rotate_zero]
        refine preferred?_congr ?_
        intro node hmem
        exact hfirst node (mem_nodes_of_mem_turn hmem)
      rw [List.map_cons, List.length_cons, List.range_succ_eq_map, List.map_cons, List.map_map,
        hpick]
      congr 1
      -- The picks after the first begin one place further on, unless there are none: then the
      -- cursor may have wrapped around.
      cases hnone : ({ m with network := m.network.advanced } : Moment).picks traffic with
      | nil => rfl
      | cons second others =>
        rw [hnone, List.length_cons] at hroom
        obtain ⟨hcursor, hturn⟩ := @turn_advanced m.network (by omega)
        have hroom' : m.network.advanced.cursor.toNat +
            (({ m with network := m.network.advanced } : Moment).picks traffic).length +
            m.network.advanced.nodes.length ≤ UInt64.size + 1 := by
          rw [hcursor, hnone, List.length_cons]
          show m.network.cursor.toNat + 1 + (others.length + 1) + m.network.nodes.length ≤ _
          omega
        rw [← hnone, ih hroom' hlater]
        refine List.map_congr_left fun i _ => ?_
        show preferred? healthy (m.network.advanced.turn.rotate i) = _
        rw [hturn, List.rotate_rotate, Nat.add_comm]
        rfl

end Moment

/-! ### Fairness -/

/-- Picks are fair. Whoever picks a node, by itself or as the first choice of a selection, gets the
same one from the same network, and moves the cursor on by one. So if there are as many picks as
nodes, made either way and with anything else in between, there is room for the places that they
look at, of which the last is `2 * n - 2` after the cursor, and no pick sees the health of a node
changed, then each healthy node is picked, an unhealthy one only if there is no healthy one, and if
all are healthy or none is, each has exactly one turn. -/
theorem round_robin_fair :
    (∀ (net : Network) (now : Time),
      (net.selection.1.next (net.isHealthy now)).1 = (net.selectNode now).1 ∧
        (net.selectNode now).2 = { net with cursor := net.cursor + 1 } ∧
        net.selection.2 = { net with cursor := net.cursor + 1 }) ∧
      ∀ (m : Moment) (traffic : List Traffic) (healthy : AccountId → Bool),
        (m.picks traffic).length = m.network.nodes.length →
        m.network.cursor.toNat + 2 * m.network.nodes.length ≤ UInt64.size + 1 →
        (∀ c ∈ m.picks traffic, ∀ node ∈ m.network.nodes,
          c.moment.isHealthy node.accountId = healthy node.accountId) →
        let picked := (m.picks traffic).map Choice.node
        (∀ node ∈ m.network.nodes, healthy node.accountId = true → node ∈ picked) ∧
          ((∃ node ∈ m.network.nodes, healthy node.accountId = true) →
            ∀ node ∈ picked, healthy node.accountId = true) ∧
          ((∀ node ∈ m.network.nodes, healthy node.accountId = true) ∨
              (∀ node ∈ m.network.nodes, healthy node.accountId = false) →
            picked.Perm m.network.nodes) := by
  refine ⟨fun net now => ⟨?_, rfl, rfl⟩, ?_⟩
  · -- Both are the preferred node of the same list.
    have hselection := Selection.preferred?_next (s := net.selection.1) rfl (net.isHealthy now)
    exact Option.some.inj (hselection.symm.trans (net.preferred?_turn now))
  intro m traffic healthy hcount hroom hsteady picked
  have hpos := List.length_pos_iff.2 m.network.nodes_ne_nil
  have hturn : m.network.turn.Perm m.network.nodes := turn_perm (.inl (by omega))
  -- So the picks are one turn of each node in the list that the cursor offers.
  have hpicked : picked.map some = window healthy m.network.turn := by
    have hpicks := Moment.picks_eq_map (by rw [hcount]; omega) hsteady
    rw [hcount, ← hturn.length_eq] at hpicks
    rw [window, ← hpicks, List.map_map]
    rfl
  have hmem (node : Node) : node ∈ picked ↔ some node ∈ window healthy m.network.turn := by
    rw [← hpicked]
    simp
  refine ⟨?_, ?_, ?_⟩
  · intro node hnode hhealthy
    exact (hmem node).2 (mem_window_of_healthy (hturn.mem_iff.2 hnode) hhealthy)
  · rintro ⟨other, hother, hhealthy⟩ node hnode
    exact healthy_of_mem_window ⟨other, hturn.mem_iff.2 hother, hhealthy⟩ ((hmem node).1 hnode)
  · intro huniform
    -- With nothing to choose, the picks are the nodes from the cursor on.
    have hall : (∀ node ∈ m.network.turn, healthy node.accountId = true) ∨
        ∀ node ∈ m.network.turn, healthy node.accountId = false := by
      simpa only [hturn.mem_iff] using huniform
    have hsame : picked = m.network.turn :=
      List.map_injective_iff.2 (fun _ _ => Option.some.inj)
        (hpicked.trans (window_eq_map_some hall))
    rw [hsame]
    exact hturn

/-- Four picks on a network of four nodes, of which one is sitting out a failure. -/
def fourPicks : List Traffic :=
  [.pick .selection, .change (.passed 1), .pick .node, .change (.failed ⟨0, 0, 4⟩), .pick .node,
    .pick .selection]

/-- The node that failed is left out, although it fails again and time passes, and the node after it
has a second turn. -/
theorem round_robin_fair_of_fourPicks :
    let m : Moment := ⟨testnet.markUnhealthy 0 ⟨0, 0, 4⟩, 0⟩
    let healthy : AccountId → Bool := fun id => decide (id ≠ ⟨0, 0, 4⟩)
    (m.picks fourPicks).length = m.network.nodes.length ∧
      m.network.cursor.toNat + 2 * m.network.nodes.length ≤ UInt64.size + 1 ∧
      (∀ c ∈ m.picks fourPicks, ∀ node ∈ m.network.nodes,
        c.moment.isHealthy node.accountId = healthy node.accountId) ∧
      (∀ node ∈ m.network.nodes, healthy node.accountId = true →
        node ∈ (m.picks fourPicks).map Choice.node) ∧
      (m.picks fourPicks).map Choice.account = [⟨0, 0, 3⟩, ⟨0, 0, 5⟩, ⟨0, 0, 5⟩, ⟨0, 0, 6⟩] := by
  intro m healthy
  have hcount : (m.picks fourPicks).length = m.network.nodes.length := by decide +kernel
  have hroom : m.network.cursor.toNat + 2 * m.network.nodes.length ≤ UInt64.size + 1 := by
    decide +kernel
  have hsteady : ∀ c ∈ m.picks fourPicks, ∀ node ∈ m.network.nodes,
      c.moment.isHealthy node.accountId = healthy node.accountId := by decide +kernel
  have hfair := round_robin_fair.2 m fourPicks healthy hcount hroom hsteady
  exact ⟨hcount, hroom, hsteady, hfair.1, by decide +kernel⟩

end Network

end LedgerClient
