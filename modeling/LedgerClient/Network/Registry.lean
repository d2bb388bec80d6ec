import LedgerClient.Network.AddressBook
import LedgerClient.Retry.Config
import LedgerClient.Table

/-!
# `LedgerClient.Network.Registry`: the nodes and how they have been doing

A network is its nodes in a fixed order, a record of recent failures,
and a cursor that spreads requests over the nodes. No node is ever
removed. One that failed is only put behind the others for a while,
and a request that finds nothing healthier still goes to it.

The time a node sits out doubles with each failure in a row, up to a
maximum, and the first answer of any kind clears the record. The
record of one node is not touched by what another node does.

A network always has a node, which the type carries, so picking one
cannot fail.

The cursor has sixty-four bits and starts over after the last number,
and so does the count of places from it on. This is arithmetic without
overflow checks: a build that has them stops instead of starting over.
-/

set_option autoImplicit false

namespace LedgerClient

/-- Failures in a row, and when the node counts as healthy again. -/
structure Health where
  failures : Nat
  readmitAt : Time
deriving DecidableEq, Repr

/-- The nodes a client may talk to, and their records. -/
structure Network where
  nodes : List Node
  nodes_ne_nil : nodes ≠ []
  health : Table AccountId Health
  cursor : UInt64
  minBackoff : Duration
  maxBackoff : Duration

namespace Network

/-- A network with no failures recorded, the cursor at its first node, and default times. -/
def ofNodes (nodes : List Node) (h : nodes ≠ []) : Network :=
  ⟨nodes, h, [], 0, milliseconds ClientConfig.default.nodeMinBackoffMs,
    milliseconds ClientConfig.default.nodeMaxBackoffMs⟩

/-- The first account that two nodes share, in the order in which the second one appears. -/
def repeated? : List Node → List AccountId → Option AccountId
  | [], _ => none
  | node :: rest, seen =>
    if node.accountId ∈ seen then some node.accountId
    else repeated? rest (node.accountId :: seen)

/-- The network of some nodes: at least one, and no two with the same account. -/
def make (nodes : List Node) : Except Error Network :=
  if h : nodes = [] then .error (.invalidArgument .noNodes)
  else match repeated? nodes [] with
    | some id => .error (.invalidArgument (.duplicateNode id))
    | none => .ok (ofNodes nodes h)

/-- The nodes at some addresses, numbered from `num`. -/
def numbered : UInt64 → List String → Except Error (List Node)
  | _, [] => .ok []
  | num, address :: rest => do
    let node ← Node.make ⟨0, 0, num⟩ address
    let nodes ← numbered (num + 1) rest
    return node :: nodes

/-- The network of some addresses, whose accounts are numbered in order. -/
def ofAddresses (addresses : List String) : Except Error Network := do
  make (← numbered AddressBook.firstAccountNum addresses)

/-- The network with a name. -/
def named (name : String) : Except Error Network :=
  match AddressBook.named? name with
  | some entries => make (AddressBook.nodes entries)
  | none => .error (.invalidArgument (.unknownNetwork name))

/-- The public test network. -/
def testnet : Network :=
  ofNodes (AddressBook.nodes AddressBook.testnet) (by decide)

/-- The network with other times for failing nodes; a maximum below the minimum is raised. -/
def withBackoff (net : Network) (min max : Duration) : Network :=
  { net with minBackoff := min, maxBackoff := Nat.max max min }

/-- The node with an account. -/
def node? (net : Network) (id : AccountId) : Option Node :=
  net.nodes.find? fun node => node.accountId = id

/-- The accounts of the nodes, in order. -/
def ids (net : Network) : List AccountId :=
  net.nodes.map Node.accountId

/-- The failures in a row of an account. -/
def failures (net : Network) (id : AccountId) : Nat :=
  match Table.get? id net.health with
  | some record => record.failures
  | none => 0

/-- Whether an account is not sitting out a failure. -/
def isHealthy (net : Network) (now : Time) (id : AccountId) : Bool :=
  match Table.get? id net.health with
  | some record => record.readmitAt ≤ now
  | none => true

/-- The count of failures stops here. -/
def maxFailures : Nat := UInt32.size - 1

/-- How often the minimum is taken after so many failures: it doubles as long as the factor
has 32 bits, and is then the largest such factor. -/
def factor (failures : Nat) : Nat :=
  if failures ≤ 32 then 1 <<< (failures - 1) else UInt32.size - 1

/-- How long a node sits out after so many failures in a row. -/
def penalty (net : Network) (failures : Nat) : Duration :=
  Nat.min (net.minBackoff * factor failures) net.maxBackoff

/-- Records a failure. -/
def markUnhealthy (net : Network) (now : Time) (id : AccountId) : Network :=
  let failures := Nat.min (net.failures id + 1) maxFailures
  { net with health := Table.insert id ⟨failures, now + net.penalty failures⟩ net.health }

/-- Forgets the failures of an account. -/
def markHealthy (net : Network) (id : AccountId) : Network :=
  { net with health := Table.erase id net.health }

/-- The node at a place, where the first one comes again after the last. -/
def nodeAt (net : Network) (place : UInt64) : Node :=
  net.nodes.get ⟨place.toNat % net.nodes.length,
    Nat.mod_lt _ (List.length_pos_iff.2 net.nodes_ne_nil)⟩

/-- The nodes in the order in which the cursor offers them: as many as there are, at the places from
the cursor on. Where the count of places starts over, a node may be offered twice and another one
not at all. -/
def turn (net : Network) : List Node :=
  (List.range net.nodes.length).map fun i => net.nodeAt (net.cursor + UInt64.ofNat i)

/-- The cursor offers a node at each of its places. -/
theorem turn_ne_nil (net : Network) : net.turn ≠ [] := by
  intro h
  rw [turn, List.map_eq_nil_iff, List.range_eq_nil, List.length_eq_zero_iff] at h
  exact net.nodes_ne_nil h

/-- The cursor moved on by one. -/
def advanced (net : Network) : Network :=
  { net with cursor := net.cursor + 1 }

/-- The first healthy node from the cursor on, or the one at the cursor if none is; the cursor
moves on by one in either case. -/
def selectNode (net : Network) (now : Time) : Node × Network :=
  let node := (net.turn.find? fun node => net.isHealthy now node.accountId).getD
    (net.turn.head net.turn_ne_nil)
  (node, net.advanced)

/-- All accounts, from the given one on; from the first if it is not among them. The places are
those of the list, which has too few of them for any count to start over. -/
def orderedFrom (net : Network) (first : AccountId) : List AccountId :=
  let place := if first ∈ net.ids then net.ids.idxOf first else 0
  net.ids.drop place ++ net.ids.take place

end Network

end LedgerClient
