import LedgerClient.Network.Registry

/-!
# `LedgerClient.Network.Selection`: which node a request tries next

Each request has its own selection over its candidates. It hands out
every candidate once, healthy ones first, in the order of the list.
When all have been handed out a new round begins, in which the node
just used counts as tried already, so that with two candidates or
more no node is asked twice in a row.

Health is looked up in the network at the moment of the choice, so it
may have changed between two choices, by this request or another.
-/

set_option autoImplicit false

namespace LedgerClient

/-- The candidates of a request and those it has tried in this round. -/
structure Selection where
  candidates : List Node
  candidates_ne_nil : candidates ≠ []
  tried : List AccountId
  last : Option AccountId
  /-- How often a new round began, all candidates having been handed out. -/
  wraps : Nat

namespace Selection

/-- A selection that has handed out nothing yet. -/
def ofNodes (candidates : List Node) (h : candidates ≠ []) : Selection :=
  ⟨candidates, h, [], none, 0⟩

/-- Whether every candidate has been handed out in this round. -/
def exhausted (s : Selection) : Bool :=
  s.candidates.all fun node => node.accountId ∈ s.tried

/-- The start of the next round: only the node just used counts as tried, and not even that
one when there is no other entry in the list. -/
def newRound (s : Selection) : Selection :=
  let tried := match s.last with
    | some last => if 1 < s.candidates.length then [last] else []
    | none => []
  { s with tried := tried, wraps := s.wraps + 1 }

/-- The rounds before this one, as they are counted: in thirty-two bits. -/
def rounds (s : Selection) : Nat :=
  s.wraps % UInt32.size

/-- The candidates not tried in this round. -/
def untried (s : Selection) : List Node :=
  s.candidates.filter fun node => node.accountId ∉ s.tried

/-- The choice among the candidates not tried in this round: the first healthy one, else the
first one, else the first candidate of all. -/
def choice (s : Selection) (healthy : AccountId → Bool) : Node :=
  match s.untried.find? fun node => healthy node.accountId with
  | some node => node
  | none => s.untried.head?.getD (s.candidates.head s.candidates_ne_nil)

/-- The next node, and the selection after it. -/
def next (s : Selection) (healthy : AccountId → Bool) : Node × Selection :=
  let s := if s.exhausted then s.newRound else s
  let node := s.choice healthy
  (node, { s with tried := node.accountId :: s.tried, last := some node.accountId })

end Selection

namespace Network

/-- A selection over all nodes, from the cursor on; the cursor moves on by one. -/
def selection (net : Network) : Selection × Network :=
  (.ofNodes net.turn net.turn_ne_nil, net.advanced)

/-- The nodes with the given accounts, which must all be part of the network. -/
def nodesFor (net : Network) : List AccountId → Except Error (List Node)
  | [] => .ok []
  | id :: rest => do
    let node ← match net.node? id with
      | some node => .ok node
      | none => .error (.invalidArgument (.foreignNode id))
    let nodes ← net.nodesFor rest
    return node :: nodes

/-- A selection over some accounts, in their order. -/
def selectionFor (net : Network) (ids : List AccountId) : Except Error Selection := do
  let nodes ← net.nodesFor ids
  if h : nodes = [] then .error (.invalidArgument .noCandidates)
  else .ok (.ofNodes nodes h)

end Network

end LedgerClient
