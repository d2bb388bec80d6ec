import LedgerClient.Proofs.Network.RoundRobin
import LedgerClient.Proofs.Request.Sending

/-!
# `LedgerClient.Proofs.Request.Primary`: the node that comes first

A draft that is frozen for a client without nodes of its own gets all
nodes of the network, and the order says which of them is asked first.
Two choices have a part in this, at different times. Freezing takes the
next node in turn and puts it first. Execution makes a selection over
the accounts of the list, and calls whichever the selection hands out
first.

Both are preferences as `Network.preferred?` states them, over the same
nodes in different rotations. The first account of the list is that of
the preferred node (`Network.head?_orderedFrom`), and it is preferred in
the list as well, since an unhealthy node is only taken in turn if all
are unhealthy. That the first call goes where the selection points is a
matter of the run: it has called nobody, or it called that node first
(`Progress.Reached.began`).

This takes a cursor with room for a look at each node. From the last few
cursors before the count of places starts over, the pick passes over some
nodes, and if the healthy ones are among them, it is an unhealthy node that
leads, and another one that is called (`frozen_nodes_mislead`).
-/

set_option autoImplicit false

namespace LedgerClient

variable {σ α : Type}

namespace Network

/-! ### The order from a node on -/

section
variable (net : Network)

/-- The node that is taken in turn is one of the network, and with room from the cursor on, it is
unhealthy only if all are. -/
theorem selectNode_spec (now : Time) : (net.selectNode now).1 ∈ net.nodes ∧
    (net.HasRoom → net.isHealthy now (net.selectNode now).1.accountId = false →
      ∀ id ∈ net.ids, net.isHealthy now id = false) := by
  have hpreferred := net.preferred?_turn now
  refine ⟨mem_nodes_of_mem_turn (mem_of_preferred? hpreferred), ?_⟩
  intro hroom hnode id hid
  obtain ⟨other, hother, rfl⟩ := List.mem_map.1 hid
  exact unhealthy_of_preferred? hpreferred hnode other ((turn_perm hroom).mem_iff.2 hother)

variable {net} {first : AccountId}

/-- All accounts from a given one on are the accounts, rotated to it. -/
theorem orderedFrom_eq_rotate (h : first ∈ net.ids) :
    net.orderedFrom first = net.ids.rotate (net.ids.idxOf first) := by
  have hplace : net.ids.idxOf first ≤ net.ids.length := List.idxOf_le_length
  rw [List.rotate_eq_drop_append_take hplace]
  simp only [orderedFrom, h, if_true]

/-- The given account comes first. -/
theorem head?_orderedFrom (h : first ∈ net.ids) : (net.orderedFrom first).head? = some first := by
  have hplace := List.idxOf_lt_length_iff.2 h
  rw [orderedFrom_eq_rotate h, List.head?_rotate hplace, List.getElem?_eq_getElem hplace,
    List.getElem_idxOf]

/-- Nodes of which none is repeated have different accounts. -/
theorem nodup_of_repeated?_eq_none {nodes : List Node} {seen : List AccountId}
    (h : repeated? nodes seen = none) :
    (nodes.map Node.accountId).Nodup ∧ ∀ node ∈ nodes, node.accountId ∉ seen := by
  -- The accounts that were seen come before the list, so the induction is for any of them.
  induction nodes generalizing seen with
  | nil => exact ⟨List.nodup_nil, nofun⟩
  | cons node nodes ih =>
    rw [repeated?] at h
    split at h
    · cases h
    next hnew =>
      obtain ⟨hnodup, hother⟩ := ih h
      refine ⟨List.nodup_cons.2 ⟨fun hmem => ?_, hnodup⟩, List.forall_mem_cons.2 ⟨hnew, ?_⟩⟩
      · obtain ⟨other, hmem, heq⟩ := List.mem_map.1 hmem
        exact hother other hmem (heq ▸ List.mem_cons_self)
      · exact fun other hmem hseen => hother other hmem (List.mem_cons_of_mem _ hseen)

/-- No two nodes of a network that was accepted share an account. -/
theorem nodup_ids_of_make {nodes : List Node} (h : make nodes = .ok net) :
    (nodes.map Node.accountId).Nodup := by
  unfold make at h
  split at h
  · cases h
  · split at h
    · cases h
    next hnone => exact (nodup_of_repeated?_eq_none hnone).1

end

end Network

/-! ### What is frozen -/

namespace Draft

variable (d : Draft) (client : Client) (now : Time) (start : Timestamp)

/-- The nodes that a draft is frozen for: its own, or all of the network from the next pick on. -/
def nodesFor (net : Network) : List AccountId :=
  d.nodeIds.getD (net.orderedFrom (net.selectNode now).1.accountId)

/-- The name that a draft is frozen under: its own, or a fresh one of the operator. -/
def nameFor : Option TransactionId :=
  d.transactionId.or (client.operator.map fun op => ⟨op.accountId, start⟩)

/-- A draft is frozen if there is a name for it, for its nodes and under that name. -/
theorem freezeWith_eq : (d.freezeWith client now start).1 =
    match d.nameFor client start with
    | some id => .ok ({ d with
        nodeIds := some (d.nodesFor now client.network), transactionId := some id }.freezeAs id
          (d.nodesFor now client.network))
    | none => .error (.illegalState .noOperatorForId) := by
  obtain ⟨network, operator, config⟩ := client
  obtain ⟨_, _, _, _, nodeIds, transactionId⟩ := d
  cases nodeIds <;> cases transactionId <;> cases operator <;> rfl

variable {d client now start}

/-- What was frozen has the name and the nodes of the draft. -/
theorem freezeWith_eq_ok {f : Frozen} (h : (d.freezeWith client now start).1 = .ok f) :
    d.nameFor client start = some f.transactionId ∧ f.nodeIds = d.nodesFor now client.network := by
  rw [freezeWith_eq] at h
  cases hname : d.nameFor client start with
  | none =>
    rw [hname] at h
    cases h
  | some id =>
    rw [hname] at h
    cases h
    exact ⟨rfl, by simp [Frozen.nodeIds, freezeAs, Function.comp_def]⟩

/-- A draft is frozen if it has a name or there is an operator to name it. -/
theorem exists_freezeWith_eq_ok_iff : (∃ f, (d.freezeWith client now start).1 = .ok f) ↔
    d.transactionId.isSome ∨ client.operator.isSome := by
  have hname : (d.nameFor client start).isSome ↔
      d.transactionId.isSome ∨ client.operator.isSome := by
    rw [nameFor, Option.isSome_or, Option.isSome_map, Bool.or_eq_true]
  rw [← hname, freezeWith_eq]
  cases d.nameFor client start <;> simp

end Draft

/-! ### The first call -/

/-- The node that was called first. -/
def firstCalled? (exchanges : List Exchange) : Option Node :=
  exchanges.head?.map fun x => x.call.node

namespace Progress

/-- The node that a request would call next. -/
def pointsAt (p : Progress σ) : Node :=
  (p.selection.next (p.network.isHealthy p.scene.now)).1

/-- How far a request has come that began at `start`, as far as its first call is concerned: it
stands where it began, or it called the node first that it pointed at there. -/
def Began (start p : Progress σ) : Prop :=
  p = start ∨ firstCalled? p.exchanges = some start.pointsAt

section
variable {transport : Transport σ} {budget : Budget} {cancelledAt : σ → Option Time}
  {exec : Executable α} {limit left : Nat} {start p q : Progress σ} {x : Exchange} {run : Run σ α}

/-- After a call, the first one is known. -/
theorem Began.call (h : Began start p) (hstart : start.exchanges = [])
    (hc : p.Calls transport budget exec x q) :
    firstCalled? q.exchanges = some start.pointsAt := by
  rw [hc.exchanges]
  rcases h with rfl | hfirst
  · rw [hstart, pointsAt, ← hc.node]
    rfl
  · obtain ⟨y, hy, hnode⟩ := Option.map_eq_some_iff.1 hfirst
    rw [firstCalled?, List.head?_append, hy, Option.some_or, Option.map_some, hnode]

/-- Before each attempt after the first, the first call is known. -/
theorem Reached.began (hstart : start.exchanges = [])
    (h : Reached transport budget cancelledAt exec limit start left p) : Began start p := by
  induction h with
  | start => exact .inl rfl
  | again _ _ attempt _ ih =>
    obtain ⟨x, call, -, -⟩ := of_attempt_failed attempt
    have hcalled := ih.call hstart call
    exact .inr hcalled

/-- However a request ends, it called nobody, or the node first that it pointed at. -/
theorem Ended.began (hp : Began start p) (hstart : start.exchanges = [])
    (h : Ended transport budget cancelledAt exec left p run) :
    run.exchanges = [] ∨ firstCalled? run.exchanges = some start.pointsAt := by
  rcases h.final with ⟨hexchanges, -⟩ | ⟨x, q, -, call, hexchanges, -⟩
  · rw [hexchanges]
    exact hp.imp (fun hsame : p = start => hsame ▸ hstart) id
  · rw [hexchanges]
    exact .inr (hp.call hstart call)

end

end Progress

/-- The first call of a request for some accounts goes to the preferred one of their nodes. -/
theorem preferred?_of_firstCalled? {transport : Transport σ} {config : ClientConfig}
    {network : Network} {exec : Executable α} {options : ExecuteOptions σ} {scene : Scene σ}
    {ids : List AccountId} {node : Node} (hids : exec.nodeIds = some ids)
    (hfirst : firstCalled? (execute transport config network exec options scene).exchanges =
      some node) :
    ∃ nodes, nodes.map Node.accountId = ids ∧
      Network.preferred? (network.isHealthy scene.now) nodes = some node := by
  -- A request that is refused has no first call, nor has one that is stopped before it.
  rcases execute_accepted_or_refused transport config network exec options scene with
    ⟨budget, selection, network', hbudget, hcand⟩ | ⟨fault, -, hrefused⟩
  · obtain ⟨limit, left, p, -, hreached, hended⟩ := execute_ended transport options hbudget hcand
    rcases hended.began (hreached.began rfl) rfl with hnone | hpoints
    · rw [hnone] at hfirst
      cases hfirst
    · -- The selection is unused, and only the cursor of the network may have moved.
      obtain ⟨_, hoffers⟩ := candidates_offers hcand
      obtain ⟨cursor, rfl⟩ := candidates_withCursor hcand
      refine ⟨selection.candidates, candidates_of_nodeIds hids hcand, ?_⟩
      rw [Selection.preferred?_next hoffers.unused.1, ← hfirst, hpoints]
      rfl
  · rw [hrefused] at hfirst
    cases hfirst

namespace Frozen

variable {f : Frozen} {client : Client} {transport : Transport σ} {options : ExecuteOptions σ}
  {scene : Scene σ} {first : AccountId} {node : Node}

/-- The first call of an execution goes to the first account that was frozen, if that is only
unhealthy when all are. -/
theorem firstCalled?_execute (hhead : f.nodeIds.head? = some first)
    (hprimary : client.network.isHealthy scene.now first = false →
      ∀ id ∈ f.nodeIds, client.network.isHealthy scene.now id = false)
    (hfirst : firstCalled? (f.execute client transport options scene).2.exchanges = some node) :
    node.accountId = first := by
  unfold execute at hfirst
  simp only at hfirst
  -- Without a signature nothing is sent.
  split at hfirst
  · cases hfirst
  · obtain ⟨nodes, hids, hpreferred⟩ := preferred?_of_firstCalled? rfl hfirst
    rw [nodeIds_signedByOperator] at hids
    rw [← hids] at hhead hprimary
    rw [List.head?_map] at hhead
    obtain ⟨primary, hnodes, rfl⟩ := Option.map_eq_some_iff.1 hhead
    -- What was said of the accounts is now said of the nodes that execution finds for them.
    have hleads : client.network.isHealthy scene.now primary.accountId = true ∨
        ∀ other ∈ nodes, client.network.isHealthy scene.now other.accountId = false := by
      cases hhealthy : client.network.isHealthy scene.now primary.accountId with
      | true => exact .inl rfl
      | false => exact .inr fun other hmem => hprimary hhealthy _ (List.mem_map_of_mem hmem)
    have hsame := Network.preferred?_eq_head? hnodes hleads
    rw [hsame] at hpreferred
    exact congrArg Node.accountId (Option.some.inj hpreferred).symm

end Frozen

/-! ### Freezing and sending -/

/-- Freezing and execution agree on the node that comes first. A draft is frozen for a client if it
has a name or the client has an operator to name it, and keeps a name and nodes of its own. If it
has no nodes it gets the accounts of all nodes, rotated, so that each of a network that was accepted
counts once. If there is room for a look at each node from the cursor on, the first is only
unhealthy if all are, and whatever was signed since then, and whoever sends it while everybody is
doing as they were, a first call goes to that first one. -/
theorem frozen_nodes_lead (d : Draft) (client : Client) (now : Time) (start : Timestamp) :
    let net := client.network
    let frozen := (d.freezeWith client now start).1
    ((∃ f, frozen = .ok f) ↔ d.transactionId.isSome ∨ client.operator.isSome) ∧
      ∀ f, frozen = .ok f →
        (∀ id, d.transactionId = some id → f.transactionId = id) ∧
        (∀ ids, d.nodeIds = some ids → f.nodeIds = ids) ∧
        (d.nodeIds = none →
          f.nodeIds.IsRotated net.ids ∧
          (∀ made, Network.make net.nodes = .ok made → ∀ id ∈ net.ids, f.nodeIds.count id = 1) ∧
          ∃ first, f.nodeIds.head? = some first ∧ (net.HasRoom →
            (net.isHealthy now first = false → ∀ id ∈ net.ids, net.isHealthy now id = false) ∧
            ∀ (f' : Frozen) (client' : Client) (transport : Transport σ)
              (options : ExecuteOptions σ) (scene : Scene σ), f'.nodeIds = f.nodeIds →
              (∀ id ∈ net.ids, client'.network.isHealthy scene.now id = net.isHealthy now id) →
              ∀ x ∈ (f'.execute client' transport options scene).2.exchanges.head?,
                x.call.node.accountId = first)) := by
  intro net frozen
  -- What a draft is frozen for is its own, or is what the next pick says.
  refine ⟨Draft.exists_freezeWith_eq_ok_iff, fun f hf => ?_⟩
  obtain ⟨hname, hnodes⟩ := Draft.freezeWith_eq_ok hf
  refine ⟨fun id hid => ?_, fun ids hids => ?_, fun hnone => ?_⟩
  · rw [Draft.nameFor, hid, Option.some_or] at hname
    exact (Option.some.inj hname).symm
  · rw [hnodes, Draft.nodesFor, hids, Option.getD_some]
  · obtain ⟨hselected, hprimary⟩ := net.selectNode_spec now
    have hid := List.mem_map_of_mem (f := Node.accountId) hselected
    generalize hfirst : (net.selectNode now).1.accountId = first at hid hprimary
    have hordered : f.nodeIds = net.orderedFrom first := by
      rw [hnodes, Draft.nodesFor, hnone, Option.getD_none, hfirst]
    -- A rotation of the accounts has each of them as often as the network does.
    have hrotated : f.nodeIds.IsRotated net.ids := by
      rw [hordered, Network.orderedFrom_eq_rotate hid]
      exact .symm ⟨_, rfl⟩
    refine ⟨hrotated, fun made hmade id hmem => ?_, first, ?_, fun hroom => ⟨hprimary hroom, ?_⟩⟩
    · have hnodup : f.nodeIds.Nodup := hrotated.nodup_iff.2 (Network.nodup_ids_of_make hmade)
      exact List.count_eq_one_of_mem hnodup (hrotated.mem_iff.2 hmem)
    · rw [hordered, Network.head?_orderedFrom hid]
    · intro f' client' transport options scene hsame hsteady x hx
      have hmem (id : AccountId) (h : id ∈ f'.nodeIds) : id ∈ net.ids := by
        rw [hsame] at h
        exact hrotated.mem_iff.1 h
      have hhead : f'.nodeIds.head? = some first := by
        rw [hsame, hordered, Network.head?_orderedFrom hid]
      refine Frozen.firstCalled?_execute hhead (fun hunhealthy id h => ?_)
        (Option.map_eq_some_iff.2 ⟨x, hx, rfl⟩)
      -- Everybody is doing as at the freeze, so the primary is unhealthy only if all are.
      rw [hsteady id (hmem id h)]
      rw [hsteady first hid] at hunhealthy
      exact hprimary hroom hunhealthy id (hmem id h)

/-- A client whose next pick would be the second node of four, which is sitting out a failure. -/
def limpingClient : Client :=
  { Client.ofNetwork Network.testnet with
    network := { Network.testnet.markUnhealthy 0 ⟨0, 0, 4⟩ with cursor := 1 } }

/-- A draft that has a name and no nodes. -/
def namedDraft : Draft where
  transactionId := some ⟨⟨0, 0, 2⟩, ⟨1700000000, 0⟩⟩

/-- The draft as it is frozen: the third node leads. -/
def namedFrozen : Frozen :=
  { namedDraft with nodeIds := some [⟨0, 0, 5⟩, ⟨0, 0, 6⟩, ⟨0, 0, 3⟩, ⟨0, 0, 4⟩] }.freezeAs
    ⟨⟨0, 0, 2⟩, ⟨1700000000, 0⟩⟩ [⟨0, 0, 5⟩, ⟨0, 0, 6⟩, ⟨0, 0, 3⟩, ⟨0, 0, 4⟩]

/-- The unhealthy node comes last, and after somebody has signed, the leading node is called. -/
theorem frozen_nodes_lead_past_unhealthy :
    let signed := namedFrozen.signWith ⟨⟨List.replicate 32 7, rfl⟩⟩ fun _ => ⟨[1, 2, 3]⟩
    let run := (signed.execute limpingClient Simulation.ScriptedLedger.transport {} ⟨0, {}⟩).2
    (namedDraft.freezeWith limpingClient 0 ⟨0, 0⟩).1 = .ok namedFrozen ∧
      namedFrozen.nodeIds.IsRotated limpingClient.network.ids ∧ run.exchanges.length = 1 ∧
      ∀ x ∈ run.exchanges, x.call.node.accountId = ⟨0, 0, 5⟩ := by
  intro signed run
  have hfrozen : (namedDraft.freezeWith limpingClient 0 ⟨0, 0⟩).1 = .ok namedFrozen := rfl
  -- One call is made, so the first is the only one.
  have hlength : run.exchanges.length = 1 := by decide +kernel
  obtain ⟨hrotated, -, first, hfirst, hagree⟩ :=
    ((frozen_nodes_lead namedDraft limpingClient 0 ⟨0, 0⟩).2 namedFrozen hfrozen).2.2 rfl
  obtain ⟨-, hleads⟩ := hagree (by decide)
  refine ⟨hfrozen, hrotated, hlength, fun x hx => ?_⟩
  obtain ⟨y, hy⟩ := List.length_eq_one_iff.1 hlength
  have hhead : x ∈ run.exchanges.head? := by
    rw [hy] at hx ⊢
    exact congrArg some (List.mem_singleton.1 hx).symm
  rw [hleads signed limpingClient Simulation.ScriptedLedger.transport {} ⟨0, {}⟩ rfl
    (fun _ _ => rfl) x hhead]
  exact (Option.some.inj hfirst).symm

/-- Three nodes of which only the second is healthy. The next pick begins two places before the
count of places starts over, so it looks at the third node, at the first, and at the first again. -/
def turningNetwork : Network :=
  let net := Network.ofNodes (Network.testnet.nodes.take 3) (by decide)
  { (net.markUnhealthy 0 ⟨0, 0, 3⟩).markUnhealthy 0 ⟨0, 0, 5⟩ with cursor := -2 }

/-- A client of these nodes. -/
def turningClient : Client :=
  { Client.ofNetwork Network.testnet with network := turningNetwork }

/-- Without an operator to name it, a draft is not frozen at all. And where the pick passes over the
only healthy node, an unhealthy one leads, and it is the healthy one that is called. -/
theorem frozen_nodes_mislead :
    (Draft.freezeWith {} limpingClient 0 ⟨0, 0⟩).1 = .error (.illegalState .noOperatorForId) ∧
      turningNetwork.isHealthy 0 ⟨0, 0, 4⟩ = true ∧
      turningNetwork.isHealthy 0 ⟨0, 0, 5⟩ = false ∧
      ∃ f, (namedDraft.freezeWith turningClient 0 ⟨0, 0⟩).1 = .ok f ∧
        f.nodeIds.head? = some ⟨0, 0, 5⟩ ∧
        (let signed := f.signWith ⟨⟨List.replicate 32 7, rfl⟩⟩ fun _ => ⟨[1, 2, 3]⟩
        let run := (signed.execute turningClient Simulation.ScriptedLedger.transport {} ⟨0, {}⟩).2
        run.exchanges.map (fun x => x.call.node.accountId) = [⟨0, 0, 4⟩]) := by
  refine ⟨rfl, by decide, by decide, ?_⟩
  refine ⟨{ namedDraft with nodeIds := some [⟨0, 0, 5⟩, ⟨0, 0, 3⟩, ⟨0, 0, 4⟩] }.freezeAs
    ⟨⟨0, 0, 2⟩, ⟨1700000000, 0⟩⟩ [⟨0, 0, 5⟩, ⟨0, 0, 3⟩, ⟨0, 0, 4⟩], rfl, rfl, ?_⟩
  decide +kernel

end LedgerClient
