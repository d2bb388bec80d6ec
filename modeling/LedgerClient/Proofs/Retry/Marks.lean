import LedgerClient.Proofs.Network.Health
import LedgerClient.Proofs.Retry.Turns
import LedgerClient.Proofs.Retry.Waiting
import LedgerClient.Request.Query
import LedgerClient.Simulation.ScriptedLedger

/-!
# `LedgerClient.Proofs.Retry.Marks`: what requests leave at the nodes

A request changes the record of a node by calling it, and in no other
way: a call that failed marks the node, and one that brought any bytes
clears its record. `Network.marked` is a network after some calls, so
the law of a request says that it leaves the network marked by exactly
the calls it made.

The same law holds of requests that share a network. Their calls end in
one order, whoever made them, and the records are what that order
leaves.

* `Progress.turn` is one turn of the loop: the checks, an attempt, and
  the wait after it. `advance_eq_turn` makes a run of it turn after
  turn, and `turn_cases` says that a turn makes one call at most.
* `Shared.Reached` is every state of any number of requests that take
  turns, where a request may have looked at the network some time before
  its call marks it.
* `Shared.Follows` is the law, which each step keeps.
-/

set_option autoImplicit false

namespace LedgerClient

/-! ### What a call leaves -/

/-- What a call says of the node that was called: it failed if nothing came back, and it answered
if anything did, whatever that was. -/
def Exchange.change (x : Exchange) : Network.Change :=
  match x.outcome with
  | .error _ => .failed x.account
  | .ok _ => .answered x.account

namespace Network

/-- The network after some calls have left their marks, one after the other. -/
def marked (net : Network) (exchanges : List Exchange) : Network :=
  exchanges.foldl (fun net x => x.mark net) net

/-- The network with another place for its cursor. -/
def withCursor (net : Network) (cursor : UInt64) : Network := { net with cursor := cursor }

section
variable (net : Network)

/-- Without exchanges the records stay as they are. -/
@[simp] theorem marked_nil : net.marked [] = net := rfl

/-- Exchanges leave their marks one after the other. -/
theorem marked_append (xs ys : List Exchange) : net.marked (xs ++ ys) = (net.marked xs).marked ys :=
  List.foldl_append

/-- One exchange leaves its own mark. -/
theorem marked_singleton (x : Exchange) : net.marked [x] = x.mark net := rfl

/-- A mark does not depend on the cursor, and does not move it. -/
theorem mark_withCursor (x : Exchange) (cursor : UInt64) :
    x.mark (net.withCursor cursor) = (x.mark net).withCursor cursor := by
  unfold Exchange.mark
  cases x.outcome <;> rfl

/-- No marks depend on the cursor, or move it. -/
theorem marked_withCursor (xs : List Exchange) (cursor : UInt64) :
    (net.withCursor cursor).marked xs = (net.marked xs).withCursor cursor := by
  induction xs generalizing net with
  | nil => rfl
  | cons x xs ih =>
    show (x.mark (net.withCursor cursor)).marked xs = _
    rw [mark_withCursor, ih]
    rfl

/-- A mark leaves the nodes as they are. -/
theorem mark_nodes (x : Exchange) : (x.mark net).nodes = net.nodes := by
  unfold Exchange.mark
  cases x.outcome <;> rfl

/-- Calls leave the nodes as they are. -/
theorem marked_nodes (xs : List Exchange) : (net.marked xs).nodes = net.nodes := by
  induction xs generalizing net with
  | nil => rfl
  | cons x xs ih => exact (ih (x.mark net)).trans (net.mark_nodes x)

/-- A call leaves the records of all nodes but the one that was called. -/
theorem get?_health_mark_of_ne {x : Exchange} {id : AccountId} (h : x.account ≠ id) :
    Table.get? id (x.mark net).health = Table.get? id net.health := by
  unfold Exchange.mark
  cases x.outcome with
  | error fault => exact Table.get?_insert_of_ne h.symm _ _
  | ok bytes => exact Table.get?_erase_of_ne h.symm _

/-- Exchanges with other nodes leave the record of a node as it is. -/
theorem get?_health_marked_of_ne {xs : List Exchange} {id : AccountId}
    (h : ∀ x ∈ xs, x.account ≠ id) :
    Table.get? id (net.marked xs).health = Table.get? id net.health := by
  induction xs generalizing net with
  | nil => rfl
  | cons x xs ih =>
    rw [List.forall_mem_cons] at h
    exact (ih (x.mark net) h.2).trans (net.get?_health_mark_of_ne h.1)

/-- A mark is what a history counts. -/
theorem failures_mark {changes : List Change} {id : AccountId} (x : Exchange)
    (h : net.failures id = Nat.min (faults id changes) maxFailures) :
    (x.mark net).failures id = Nat.min (faults id (changes ++ [x.change])) maxFailures := by
  rw [faults_concat]
  unfold Exchange.mark Exchange.change
  -- A fault counts one more failure of the node, and an answer starts its count over.
  cases x.outcome with
  | error fault =>
    rw [if_neg nofun]
    show (net.markUnhealthy x.ended x.account).failures id = _
    rw [failures_markUnhealthy]
    by_cases hid : id = x.account
    · subst hid
      rw [if_pos rfl, if_pos rfl, h]
      exact min_succ_min _ _
    · have hne : Change.failed x.account ≠ .failed id := fun heq => hid (Change.failed.inj heq).symm
      rw [if_neg hid, if_neg hne]
      exact h
  | ok bytes =>
    show (net.markHealthy x.account).failures id = _
    rw [failures_markHealthy]
    by_cases hid : id = x.account
    · subst hid
      rw [if_pos rfl, if_pos rfl]
      rfl
    · have hne : Change.answered x.account ≠ .answered id :=
        fun heq => hid (Change.answered.inj heq).symm
      rw [if_neg hid, if_neg hne, if_neg nofun]
      exact h

/-- Where nothing was recorded before, the count of an account is how often it has failed in these
calls since it last answered one. -/
theorem failures_marked (hnew : net.health = []) (xs : List Exchange) (id : AccountId) :
    (net.marked xs).failures id = Nat.min (faults id (xs.map Exchange.change)) maxFailures := by
  induction xs using List.reverseRecOn with
  | nil =>
    rw [marked_nil, failures_eq, hnew]
    rfl
  | append_singleton xs x ih =>
    rw [marked_append, marked_singleton, List.map_append, List.map_singleton]
    exact (net.marked xs).failures_mark x ih

end

end Network

/-! ### One turn -/

variable {σ α : Type}

/-- Where a request stands: before an attempt, which so many more may follow, or at its end. -/
inductive Stage (σ α : Type) where
  | before (left : Nat) (p : Progress σ)
  | done (run : Run σ α)

namespace Stage

/-- The calls that have been made. -/
def exchanges : Stage σ α → List Exchange
  | before _ p => p.exchanges
  | done run => run.exchanges

/-- The network as the request left it. -/
def network : Stage σ α → Network
  | before _ p => p.network
  | done run => run.network

end Stage

namespace Progress

section
variable (transport : Transport σ) (budget : Budget) (cancelledAt : σ → Option Time)
  (exec : Executable α)

/-- One turn of the loop: the request ends, or it makes a failed attempt and waits for the next. -/
def turn (left : Nat) (p : Progress σ) : Stage σ α :=
  if p.cancelled cancelledAt then .done (p.finish (.error (.cancelled p.attempts p.last)))
  else if budget.deadlinePassed p.scene.now then
    .done (p.finish (.error (.deadlineExceeded p.attempts p.last)))
  else match p.attempt transport budget exec with
    | (.settled result, q) => .done (q.finish result)
    | (.failed _, q) =>
      match left with
      | 0 => .done (q.finish (.error (.maxAttemptsExceeded q.attempts q.last)))
      | left + 1 =>
        match q.pause transport budget cancelledAt with
        | .cancelled t => .done ((q.later t).finish (.error (.cancelled q.attempts q.last)))
        | .deadline t => .done ((q.later t).finish (.error (.deadlineExceeded q.attempts q.last)))
        | .resume t => .before left (q.later t)

/-- A run is one turn after the other. -/
theorem advance_eq_turn (left : Nat) (p : Progress σ) :
    advance transport budget cancelledAt exec (left + 1) p =
      match p.turn transport budget cancelledAt exec left with
      | .done run => run
      | .before left q => advance transport budget cancelledAt exec (left + 1) q := by
  rw [advance, turn]
  by_cases hcancelled : p.cancelled cancelledAt = true
  · rw [if_pos hcancelled, if_pos hcancelled]
  rw [if_neg hcancelled, if_neg hcancelled]
  by_cases hoverdue : budget.deadlinePassed p.scene.now = true
  · rw [if_pos hoverdue, if_pos hoverdue]
  rw [if_neg hoverdue, if_neg hoverdue]
  -- Both go on as the attempt comes out, and wait in the same way.
  rcases p.attempt transport budget exec with ⟨result | failure, q⟩
  · rfl
  · cases left with
    | zero => rfl
    | succ left =>
      simp only [Nat.succ_ne_zero, if_false, pause]
      cases Pause.ofWait (cancelledAt q.scene.world) budget.deadline q.scene.now
        (transport.timer (budget.backoff.delay q.attempts)) <;> rfl

/-- A turn makes a call and leaves the network with its mark, or it makes no call and leaves the
network alone. -/
theorem turn_cases (left : Nat) (p : Progress σ) :
    let stage := p.turn transport budget cancelledAt exec left
    (stage.exchanges = p.exchanges ∧ stage.network = p.network) ∨
      ∃ x, stage.exchanges = p.exchanges ++ [x] ∧ stage.network = x.mark p.network := by
  intro stage
  show (stage.exchanges = _ ∧ stage.network = _) ∨ _
  unfold stage turn
  by_cases hcancelled : p.cancelled cancelledAt = true
  · rw [if_pos hcancelled]
    exact .inl ⟨rfl, rfl⟩
  rw [if_neg hcancelled]
  by_cases hoverdue : budget.deadlinePassed p.scene.now = true
  · rw [if_pos hoverdue]
    exact .inl ⟨rfl, rfl⟩
  rw [if_neg hoverdue]
  have hattempted := attempted transport budget exec p
  generalize p.attempt transport budget exec = made at hattempted
  cases hattempted with
  | unasked request => exact .inl ⟨rfl, rfl⟩
  | @settled x result q call settles => exact .inr ⟨x, call.exchanges, call.network⟩
  | @failed x failure q call fails last =>
    -- Whatever follows the call, nothing but the time is changed.
    refine .inr ⟨x, ?_⟩
    cases left with
    | zero => exact ⟨call.exchanges, call.network⟩
    | succ left =>
      cases hpause : q.pause transport budget cancelledAt <;>
        simp only [hpause] <;> exact ⟨call.exchanges, call.network⟩

end

section
variable {transport : Transport σ} {budget : Budget} {cancelledAt : σ → Option Time}
  {exec : Executable α}

/-- A turn that is not the last uses up an attempt. -/
theorem left_of_turn {left left' : Nat} {p q : Progress σ}
    (h : p.turn transport budget cancelledAt exec left = .before left' q) : left = left' + 1 := by
  unfold turn at h
  -- Every way to end the request is none to go on.
  split at h
  · cases h
  split at h
  · cases h
  split at h
  · cases h
  next hattempt =>
  cases left with
  | zero => cases h
  | succ left =>
    simp only at h
    split at h <;> cases h
    rfl

end

section
variable (transport : Transport σ) (budget : Budget) (cancelledAt : σ → Option Time)
  (exec : Executable α)

/-- A turn leaves the network marked by the calls so far. -/
theorem turn_marked {net : Network} (left : Nat) {p : Progress σ}
    (h : p.network = net.marked p.exchanges) :
    let stage := p.turn transport budget cancelledAt exec left
    stage.network = net.marked stage.exchanges := by
  intro stage
  rcases turn_cases transport budget cancelledAt exec left p with
    ⟨hexchanges, hnetwork⟩ | ⟨x, hexchanges, hnetwork⟩
  · rw [hexchanges, hnetwork, h]
  · rw [hexchanges, hnetwork, h, Network.marked_append, Network.marked_singleton]

/-- A run leaves the network marked by the calls it made, each once and in their order. -/
theorem advance_marked {net : Network} (left : Nat) {p : Progress σ}
    (h : p.network = net.marked p.exchanges) :
    let run := advance transport budget cancelledAt exec (left + 1) p
    run.network = net.marked run.exchanges := by
  -- The turns that are left become fewer, so the induction is on these.
  induction left using Nat.strongRecOn generalizing p with
  | ind left ih =>
    have hmarked := turn_marked transport budget cancelledAt exec left h
    rw [advance_eq_turn]
    cases hturn : p.turn transport budget cancelledAt exec left with
    | done run =>
      rw [hturn] at hmarked
      exact hmarked
    | before left' q =>
      rw [hturn] at hmarked
      have hleft := left_of_turn hturn
      exact ih left' (by omega) hmarked

end

end Progress

/-! ### A request by itself -/

/-- Looking up candidates moves the cursor at most. -/
theorem candidates_withCursor {network network' : Network} {exec : Executable α}
    {selection : Selection} (h : candidates network exec = .ok (selection, network')) :
    ∃ cursor, network' = network.withCursor cursor := by
  unfold candidates at h
  cases hids : exec.nodeIds with
  | none =>
    rw [hids] at h
    cases h
    exact ⟨network.cursor + 1, rfl⟩
  | some ids =>
    rw [hids] at h
    cases hselection : network.selectionFor ids with
    | error e => simp [hselection, Except.map] at h
    | ok selection' =>
      simp only [hselection, Except.map, Except.ok.injEq, Prod.mk.injEq] at h
      exact ⟨network.cursor, h.2 ▸ rfl⟩

/-- A request leaves the network marked by the calls it made, and the cursor moved at most. -/
theorem execute_marked (transport : Transport σ) (config : ClientConfig) (network : Network)
    (exec : Executable α) (options : ExecuteOptions σ) (scene : Scene σ) :
    let run := execute transport config network exec options scene
    ∃ cursor, run.network = (network.marked run.exchanges).withCursor cursor := by
  intro run
  rcases execute_accepted_or_refused transport config network exec options scene with
    ⟨budget, selection, network', hbudget, hcand⟩ | ⟨fault, -, hrun⟩
  · obtain ⟨limit, hlimit⟩ := Budget.resolve_maxAttempts hbudget
    obtain ⟨cursor, hcursor⟩ := candidates_withCursor hcand
    -- At the start there are no calls, and so no marks.
    have hfresh : (Progress.fresh scene network' selection).network = network'.marked [] := rfl
    have hmarked := Progress.advance_marked transport budget options.cancelledAt exec limit hfresh
    refine ⟨cursor, ?_⟩
    show (execute transport config network exec options scene).network = (network.marked
      (execute transport config network exec options scene).exchanges).withCursor cursor
    rw [execute_eq_advance hbudget hcand, hlimit, hmarked, hcursor, Network.marked_withCursor]
  · exact ⟨network.cursor, by rw [show run = _ from hrun]; rfl⟩

/-- Why a request may be over before its first call: it has no attempts, nobody to ask, or somebody
whom the network does not know, or it has been cancelled or is late already. -/
inductive Rejected (config : ClientConfig) (network : Network) (exec : Executable α)
    (options : ExecuteOptions σ) (scene : Scene σ) : Prop
  | noAttempts (none : options.maxAttempts.getD config.maxAttempts = 0)
  | noCandidates (given : exec.nodeIds = some [])
  | foreignNode {ids : List AccountId} {id : AccountId} (given : exec.nodeIds = some ids)
      (mem : id ∈ ids) (unknown : network.node? id = none)
  | cancelled (cancelled : scene.Cancelled options.cancelledAt)
  | overdue {deadline : Time}
      (deadline_eq :
        options.deadline.or (config.deadlineMs.map fun ms => scene.now + milliseconds ms) =
          some deadline)
      (passed : deadline ≤ scene.now)

/-- A selection is refused if some account has no node in the network. -/
theorem Network.selectionFor_ne_ok_of_unknown {net : Network} {ids : List AccountId}
    {id : AccountId}
    (hmem : id ∈ ids) (hunknown : net.node? id = none) (s : Selection) :
    net.selectionFor ids ≠ .ok s := by
  intro h
  obtain ⟨hnodes, hids, -⟩ := selectionFor_eq_ok h
  rw [← hids, List.mem_map] at hmem
  obtain ⟨node, hnode, hid⟩ := hmem
  have hne := List.find?_eq_none.1 hunknown node (hnodes node hnode)
  exact hne (by simpa using hid)

/-- The deadline of a request is the caller's, or that of the client from now on. -/
theorem Budget.resolve_deadline {config : ClientConfig} {options : ExecuteOptions σ} {now : Time}
    {budget : Budget} (h : Budget.resolve config options now = .ok budget) :
    budget.deadline =
      options.deadline.or (config.deadlineMs.map fun ms => now + milliseconds ms) := by
  unfold resolve at h
  simp only at h
  split at h
  · cases h
  · cases h
    rfl

/-- A request that is rejected makes no call. -/
theorem Rejected.exchanges_eq_nil (transport : Transport σ) {config : ClientConfig}
    {network : Network} {exec : Executable α} {options : ExecuteOptions σ} {scene : Scene σ}
    (h : Rejected config network exec options scene) :
    (execute transport config network exec options scene).exchanges = [] := by
  rcases execute_accepted_or_refused transport config network exec options scene with
    ⟨budget, selection, network', hbudget, hcand⟩ | ⟨fault, -, hrun⟩
  · obtain ⟨limit, hlimit⟩ := Budget.resolve_maxAttempts hbudget
    rw [execute_eq_advance hbudget hcand, hlimit, Progress.advance]
    -- With a budget and candidates, only the checks before the first attempt are left.
    have hchecked : (Progress.fresh scene network' selection).cancelled options.cancelledAt = true ∨
        budget.deadlinePassed scene.now = true := by
      -- Without a budget or candidates the request would not have got so far.
      cases h with
      | noAttempts none =>
        rw [Budget.resolve] at hbudget
        simp [none] at hbudget
      | noCandidates given =>
        rw [candidates, given] at hcand
        cases hcand
      | @foreignNode ids id given mem unknown =>
        rw [candidates, given] at hcand
        cases hselection : network.selectionFor ids with
        | error e => simp [hselection, Except.map] at hcand
        | ok s => exact absurd hselection (Network.selectionFor_ne_ok_of_unknown mem unknown s)
      | cancelled cancelled => exact .inl ((Progress.cancelled_iff _ _).2 cancelled)
      | overdue deadline_eq passed =>
        rw [← Budget.resolve_deadline hbudget] at deadline_eq
        exact .inr ((Progress.deadlinePassed_iff budget (.fresh scene network' selection)).2
          ⟨_, deadline_eq, passed⟩)
    -- The cancellation is looked at first.
    by_cases hcancelled :
        (Progress.fresh scene network' selection).cancelled options.cancelledAt = true
    · rw [if_pos hcancelled]
      rfl
    · have hoverdue := hchecked.resolve_left hcancelled
      rw [if_neg hcancelled]
      show (if budget.deadlinePassed scene.now = true then _ else _ : Run σ α).exchanges = []
      rw [if_pos hoverdue]
      rfl
  · rw [hrun]

/-! ### Requests that share a network -/

/-- A request among others: how it is carried out, and where it stands. -/
structure Job where
  World : Type
  Result : Type
  transport : Transport World
  budget : Budget
  cancelledAt : World → Option Time
  exec : Executable Result
  stage : Stage World Result

namespace Job

/-- The calls that the request has made. -/
def exchanges (job : Job) : List Exchange := job.stage.exchanges

/-- The request takes its turn, with the network as it has seen it. -/
def turn (job : Job) (seen : Network) : Job :=
  match job.stage with
  | .before left p =>
    { job with
      stage := { p with network := seen }.turn job.transport job.budget job.cancelledAt job.exec
        left }
  | .done _ => job

/-- The calls of a turn. -/
def made (job : Job) (seen : Network) : List Exchange :=
  (job.turn seen).exchanges.drop job.exchanges.length

/-- Time passes for the request, or its outside changes. -/
def moved (job : Job) (scene : Scene job.World) : Job :=
  match job.stage with
  | .before left p => { job with stage := .before left { p with scene := scene } }
  | .done _ => job

variable (job : Job) (seen : Network)

/-- The calls of a turn come after the ones before, and there is one at most. -/
theorem turn_exchanges : (job.turn seen).exchanges = job.exchanges ++ job.made seen ∧
    (job.made seen).length ≤ 1 := by
  suffices h : ∃ xs, (job.turn seen).exchanges = job.exchanges ++ xs ∧ xs.length ≤ 1 by
    obtain ⟨xs, heq, hle⟩ := h
    rw [made, heq, List.drop_left]
    exact ⟨rfl, hle⟩
  obtain ⟨World, Result, transport, budget, cancelledAt, exec, stage⟩ := job
  -- A request that is over makes no more calls.
  cases stage with
  | done run => exact ⟨[], (List.append_nil _).symm, Nat.zero_le 1⟩
  | before left p =>
    rcases Progress.turn_cases transport budget cancelledAt exec left
        { p with network := seen } with
      ⟨hexchanges, -⟩ | ⟨x, hexchanges, -⟩
    · exact ⟨[], by rw [List.append_nil]; exact hexchanges, Nat.zero_le 1⟩
    · exact ⟨[x], hexchanges, Nat.le_refl 1⟩

/-- A turn that a request takes with the network as it is leaves that network with the marks of its
calls. -/
theorem turn_network {left : Nat} {p : Progress job.World} (h : job.stage = .before left p) :
    (job.turn seen).stage.network = seen.marked (job.made seen) := by
  obtain ⟨World, Result, transport, budget, cancelledAt, exec, stage⟩ := job
  cases stage with
  | done run => exact absurd h nofun
  | before left q =>
    rw [made]
    rcases Progress.turn_cases transport budget cancelledAt exec left
        { q with network := seen } with
      ⟨hexchanges, hnetwork⟩ | ⟨x, hexchanges, hnetwork⟩
    · -- What a turn has made is what its calls have got longer by.
      have hdrop := congrArg (List.drop q.exchanges.length) hexchanges
      rw [List.drop_length] at hdrop
      exact hnetwork.trans (congrArg seen.marked hdrop).symm
    · have hdrop := congrArg (List.drop q.exchanges.length) hexchanges
      rw [List.drop_left] at hdrop
      exact hnetwork.trans (congrArg seen.marked hdrop).symm

/-- What goes on outside adds no exchange to a request. -/
theorem moved_exchanges (scene : Scene job.World) :
    (job.moved scene).exchanges = job.exchanges := by
  obtain ⟨World, Result, transport, budget, cancelledAt, exec, stage⟩ := job
  cases stage <;> rfl

end Job

/-- Requests that share a network, and all their calls in the order in which they ended, each with
the number of the request that made it. -/
structure Shared where
  network : Network
  jobs : List Job
  log : List (Nat × Exchange)

namespace Shared

/-- The calls that have been made, whoever made them. -/
def calls (s : Shared) : List Exchange := s.log.map Prod.snd

/-- The calls that a request made. -/
def callsOf (s : Shared) (i : Nat) : List Exchange :=
  (s.log.filter fun entry => entry.1 = i).map Prod.snd

/-- One more request, which found its candidates in the network. -/
def joined (s : Shared) (job : Job) (network : Network) : Shared :=
  { s with network := network, jobs := s.jobs ++ [job] }

/-- A request has made some calls, which leave their marks at the network as it is by then. -/
def called (s : Shared) (i : Nat) (job : Job) (xs : List Exchange) : Shared where
  network := s.network.marked xs
  jobs := s.jobs.set i job
  log := s.log ++ xs.map (Prod.mk i)

/-- A request takes its turn, with the network as it has seen it. -/
def turned (s : Shared) (i : Nat) (seen : Network) : Shared :=
  match s.jobs[i]? with
  | some job => s.called i (job.turn seen) (job.made seen)
  | none => s

/-- Everything that can become of a network on which requests begin and take turns. A request may
have looked at the network before others marked it, so what it has seen may be any network. -/
inductive Reached (net : Network) : Shared → Prop
  | start : Reached net ⟨net, [], []⟩
  | joined {s : Shared} {σ α : Type} (reached : Reached net s) (transport : Transport σ)
      (config : ClientConfig) (exec : Executable α) (options : ExecuteOptions σ) (scene : Scene σ)
      {budget : Budget} {selection : Selection} {network : Network}
      (accepted : Budget.resolve config options scene.now = .ok budget)
      (offered : candidates s.network exec = .ok (selection, network)) :
      Reached net (s.joined ⟨σ, α, transport, budget, options.cancelledAt, exec,
        .before (budget.maxAttempts - 1) (.fresh scene network selection)⟩ network)
  | turned {s : Shared} (reached : Reached net s) (i : Nat) (seen : Network) :
      Reached net (s.turned i seen)
  | moved {s : Shared} {i : Nat} {job : Job} (reached : Reached net s) (at_ : s.jobs[i]? = some job)
      (scene : Scene job.World) : Reached net (s.called i (job.moved scene) [])

/-- The law of requests that share a network. It is marked by all their calls in the order in which
these ended, and each request has made its share of them, in its own order. -/
structure Follows (net : Network) (s : Shared) : Prop where
  network : ∃ cursor, s.network = (net.marked s.calls).withCursor cursor
  known : ∀ entry ∈ s.log, entry.1 < s.jobs.length
  own : ∀ i job, s.jobs[i]? = some job → job.exchanges = s.callsOf i

section
variable {net : Network} {s : Shared}

/-- More calls of one request are more calls of that one only. -/
theorem filter_snd_append (log : List (Nat × Exchange)) (i j : Nat) (xs : List Exchange) :
    ((log ++ xs.map (Prod.mk i)).filter fun entry => entry.1 = j).map Prod.snd =
      (log.filter fun entry => entry.1 = j).map Prod.snd ++ if i = j then xs else [] := by
  rw [List.filter_append, List.map_append]
  -- All of the new calls are of this request, or none of them is.
  by_cases h : i = j
  · have hall : (xs.map (Prod.mk i)).filter (fun entry => entry.1 = j) = xs.map (Prod.mk i) := by
      rw [List.filter_eq_self]
      simp [h]
    rw [if_pos h, hall, List.map_map]
    exact congrArg _ (List.map_id' xs)
  · have hnone : (xs.map (Prod.mk i)).filter (fun entry => entry.1 = j) = [] := by
      rw [List.filter_eq_nil_iff]
      simp [h]
    rw [if_neg h, hnone]
    rfl

/-- At the beginning there is nothing to follow. -/
theorem follows_start (net : Network) : Follows net ⟨net, [], []⟩ where
  network := ⟨net.cursor, rfl⟩
  known := nofun
  own _ _ h := by simp at h

/-- A request that joins has not called anybody, and moves the cursor at most. -/
theorem Follows.joined (h : Follows net s) {job : Job} (hnew : job.exchanges = [])
    {network : Network} {cursor : UInt64} (hcursor : network = s.network.withCursor cursor) :
    Follows net (s.joined job network) where
  network := by
    obtain ⟨cursor', hnetwork⟩ := h.network
    refine ⟨cursor, ?_⟩
    show network = _
    rw [hcursor, hnetwork]
    rfl
  known entry hentry := by
    have hlt := h.known entry hentry
    show entry.1 < (s.jobs ++ [job]).length
    rw [List.length_append]
    exact Nat.lt_add_right _ hlt
  own i job' hjob' := by
    have hmem : (s.jobs ++ [job])[i]? = some job' := hjob'
    -- The other requests keep their numbers, and the new one comes after them.
    by_cases hold : i < s.jobs.length
    · rw [List.getElem?_append_left hold] at hmem
      exact h.own i job' hmem
    · -- No call in the log has the number of the request that joins.
      have hnone : (s.log.filter fun entry => entry.1 = i) = [] := by
        rw [List.filter_eq_nil_iff]
        intro entry hentry
        have hlt := h.known entry hentry
        simp only [decide_eq_true_eq]
        omega
      rw [List.getElem?_append_right (Nat.le_of_not_lt hold)] at hmem
      have hsame := List.mem_singleton.1 (List.mem_of_getElem? hmem)
      show job'.exchanges = (s.log.filter fun entry => entry.1 = i).map Prod.snd
      rw [hsame, hnew, hnone]
      rfl

/-- Calls go to the end of the log, and leave their marks. -/
theorem Follows.called (h : Follows net s) {i : Nat} {job job' : Job} {xs : List Exchange}
    (hjob : s.jobs[i]? = some job) (hxs : job'.exchanges = job.exchanges ++ xs) :
    Follows net (s.called i job' xs) where
  network := by
    obtain ⟨cursor, hnetwork⟩ := h.network
    refine ⟨cursor, ?_⟩
    have hcalls : (s.called i job' xs).calls = s.calls ++ xs := by
      show (s.log ++ xs.map (Prod.mk i)).map Prod.snd = _
      rw [List.map_append, List.map_map]
      exact congrArg _ (List.map_id' xs)
    show s.network.marked xs = _
    rw [hcalls, Network.marked_append, hnetwork, Network.marked_withCursor]
  known entry hentry := by
    show entry.1 < (s.jobs.set i job').length
    rw [List.length_set]
    rcases List.mem_append.1 hentry with hold | hnew
    · exact h.known entry hold
    · obtain ⟨x, -, rfl⟩ := List.mem_map.1 hnew
      exact (List.getElem?_eq_some_iff.1 hjob).1
  own j other hother := by
    have hset : (s.jobs.set i job')[j]? = some other := hother
    show other.exchanges =
      ((s.log ++ xs.map (Prod.mk i)).filter fun entry => entry.1 = j).map Prod.snd
    rw [filter_snd_append]
    -- The calls are this request's own, and the others keep theirs.
    by_cases hij : i = j
    · subst hij
      have hlt := (List.getElem?_eq_some_iff.1 hjob).1
      rw [List.getElem?_set_self hlt] at hset
      cases hset
      rw [if_pos rfl, hxs, h.own i job hjob]
      rfl
    · rw [List.getElem?_set_ne hij] at hset
      rw [if_neg hij, List.append_nil]
      exact h.own j other hset

/-- A turn makes its calls, if there is such a request. -/
theorem Follows.turned (h : Follows net s) (i : Nat) (seen : Network) :
    Follows net (s.turned i seen) := by
  unfold Shared.turned
  cases hjob : s.jobs[i]? with
  | none => exact h
  | some job => exact h.called hjob (job.turn_exchanges seen).1

/-- Whatever requests do on a network, the law holds. -/
theorem Reached.follows (h : Reached net s) : Follows net s := by
  induction h with
  | start => exact follows_start net
  | joined reached transport config exec options scene accepted offered ih =>
    obtain ⟨cursor, hcursor⟩ := candidates_withCursor offered
    exact ih.joined rfl hcursor
  | turned reached i seen ih => exact ih.turned i seen
  | @moved s i job reached at_ scene ih =>
    refine ih.called at_ ?_
    rw [List.append_nil, job.moved_exchanges scene]

/-- A request that nobody joins takes its turns until its run is what it would have been by itself,
and leaves the network as that run does. -/
theorem Reached.alone {σ α : Type} {transport : Transport σ} {budget : Budget}
    {cancelledAt : σ → Option Time} {exec : Executable α} (h : Reached net s) {left : Nat}
    {p : Progress σ} (hnetwork : p.network = s.network)
    (hjobs : s.jobs = [⟨σ, α, transport, budget, cancelledAt, exec, .before left p⟩]) :
    let run := p.advance transport budget cancelledAt exec (left + 1)
    ∃ s', Reached net s' ∧ s'.network = run.network ∧
      s'.jobs = [⟨σ, α, transport, budget, cancelledAt, exec, .done run⟩] := by
  induction left using Nat.strongRecOn generalizing s p with
  | ind left ih =>
    -- The request takes a turn with the network as its last turn has left it.
    have hturned := h.turned 0 p.network
    have hmarked := Job.turn_network ⟨σ, α, transport, budget, cancelledAt, exec, .before left p⟩
      p.network rfl
    rw [Shared.turned, hjobs] at hturned
    simp only [List.getElem?_cons_zero, called, hjobs, ← hnetwork, ← hmarked,
      List.set_cons_zero] at hturned
    rw [Progress.advance_eq_turn]
    simp only [Job.turn] at hturned
    cases hstage : p.turn transport budget cancelledAt exec left with
    | done run =>
      rw [show ({ p with network := p.network } : Progress σ) = p from rfl, hstage] at hturned
      exact ⟨_, hturned, rfl, rfl⟩
    | before left' q =>
      rw [show ({ p with network := p.network } : Progress σ) = p from rfl, hstage] at hturned
      have hleft := Progress.left_of_turn hstage
      exact ih left' (by omega) hturned rfl rfl

/-- A request that is accepted can run to its end among no others. -/
theorem reached_execute {σ α : Type} (transport : Transport σ) {config : ClientConfig}
    {exec : Executable α} (options : ExecuteOptions σ) {scene : Scene σ} {budget : Budget}
    {selection : Selection} {network : Network}
    (hbudget : Budget.resolve config options scene.now = .ok budget)
    (hcand : candidates net exec = .ok (selection, network)) :
    let run := execute transport config net exec options scene
    ∃ s, Reached net s ∧ s.network = run.network ∧
      s.jobs = [⟨σ, α, transport, budget, options.cancelledAt, exec, .done run⟩] := by
  obtain ⟨limit, hlimit⟩ := Budget.resolve_maxAttempts hbudget
  have hbegun := Reached.start.joined transport config exec options scene hbudget hcand
  rw [hlimit, Nat.add_sub_cancel] at hbegun
  rw [execute_eq_advance hbudget hcand, hlimit]
  exact hbegun.alone rfl rfl

end

end Shared

/-! ### The law -/

/-- The law of what requests leave at the nodes. A request leaves its network marked by the calls
that the outside has seen of it, each once and in their order: a node that was called and brought
nothing has failed once more, one that brought any bytes has its record cleared, and nodes that were
not called keep theirs. One that is rejected makes no call and leaves all records.

The same holds of requests that share a network, however they take turns. The records are those that
all their calls leave in the order in which they ended, and each request made its share of them. So,
if there were no records, the count of a node is how often it has failed since it last answered
anybody, as far as 32 bits go. A request that nobody joins is a run by itself. -/
theorem health_follows_calls (transport : Transport σ) (config : ClientConfig) (network : Network)
    (exec : Executable α) (options : ExecuteOptions σ) (scene : Scene σ) :
    let run := execute transport config network exec options scene
    (∃ cursor, run.network = (network.marked run.exchanges).withCursor cursor) ∧
      run.scene.world = transport.after scene.world run.exchanges ∧
      (∀ id, (∀ x ∈ run.exchanges, x.account ≠ id) →
        Table.get? id run.network.health = Table.get? id network.health) ∧
      (Rejected config network exec options scene →
        run.exchanges = [] ∧ run.network.health = network.health) ∧
      (∀ s, Shared.Reached network s →
        (∃ cursor, s.network = (network.marked s.calls).withCursor cursor) ∧
        (∀ i job, s.jobs[i]? = some job → job.exchanges = s.callsOf i) ∧
        (∀ id, (∀ x ∈ s.calls, x.account ≠ id) →
          Table.get? id s.network.health = Table.get? id network.health) ∧
        (network.health = [] → ∀ id, s.network.failures id =
          Nat.min (Network.faults id (s.calls.map Exchange.change)) (2 ^ 32 - 1))) ∧
      (run.exchanges = [] ∨ ∃ s job, Shared.Reached network s ∧ s.jobs = [job] ∧
        job.exchanges = run.exchanges ∧ s.network = run.network) := by
  intro run
  obtain ⟨cursor, hmarked⟩ := execute_marked transport config network exec options scene
  have hhealth : run.network.health = (network.marked run.exchanges).health := by
    rw [show run.network = _ from hmarked]
    rfl
  refine ⟨⟨cursor, hmarked⟩, ?_, fun id huncalled => ?_, fun hrejected => ?_, fun s hs => ?_, ?_⟩
  · -- The outside has seen the calls that are recorded, and no others.
    rcases execute_accepted_or_refused transport config network exec options scene with
      ⟨budget, selection, network', hbudget, hcand⟩ | ⟨fault, -, hrun⟩
    · exact (execute_recorded transport options hbudget hcand).2.2
    · rw [show run = _ from hrun, Transport.after_nil]
  · rw [hhealth]
    exact network.get?_health_marked_of_ne huncalled
  · have hnone := hrejected.exchanges_eq_nil transport
    refine ⟨hnone, ?_⟩
    rw [hhealth, show run.exchanges = [] from hnone, Network.marked_nil]
  · have hfollows := hs.follows
    obtain ⟨cursor', hnetwork⟩ := hfollows.network
    refine ⟨⟨cursor', hnetwork⟩, hfollows.own, fun id huncalled => ?_, fun hnew id => ?_⟩
    · rw [hnetwork]
      exact network.get?_health_marked_of_ne huncalled
    · -- Without records at first, the marks are a history of failures and answers.
      rw [hnetwork]
      exact network.failures_marked hnew s.calls id
  · rcases execute_accepted_or_refused transport config network exec options scene with
      ⟨budget, selection, network', hbudget, hcand⟩ | ⟨fault, -, hrun⟩
    · obtain ⟨s, hs, hnetwork, hjobs⟩ := Shared.reached_execute transport options hbudget hcand
      exact .inr ⟨s, _, hs, hjobs, rfl, hnetwork⟩
    · exact .inl (by rw [show run = _ from hrun])

/-- A ledger of which the first node of the test network is unreachable at first. -/
def deafLedger : Simulation.ScriptedLedger where
  scripts := [(⟨0, 0, 3⟩, [⟨0, .fault .reset⟩])]

/-- Two requests at once, of which the second has looked at the network before the first one's call
failed. -/
theorem health_follows_calls_overlapping :
    ∃ s, Shared.Reached .testnet s ∧ Network.testnet.health = [] ∧
      s.log.map (fun entry => (entry.1, entry.2.account)) = [(0, ⟨0, 0, 3⟩), (1, ⟨0, 0, 4⟩)] ∧
      s.network.failures ⟨0, 0, 3⟩ = 1 ∧
      s.network.failures ⟨0, 0, 3⟩ =
        Nat.min (Network.faults ⟨0, 0, 3⟩ (s.calls.map Exchange.change)) (2 ^ 32 - 1) := by
  have hstart : Shared.Reached .testnet ⟨.testnet, [], []⟩ := .start
  have hjoined := (hstart.joined Simulation.ScriptedLedger.transport .default
    (Balance.query ⟨0, 0, 2⟩ none) {} ⟨0, deafLedger⟩ rfl rfl).joined
    Simulation.ScriptedLedger.transport .default (Balance.query ⟨0, 0, 2⟩ none) {} ⟨0, deafLedger⟩
    rfl rfl
  have hturned := (hjoined.turned 0 .testnet).turned 1 .testnet
  refine ⟨_, hturned, rfl, rfl, rfl, ?_⟩
  exact ((health_follows_calls Simulation.ScriptedLedger.transport .default .testnet
    (Balance.query ⟨0, 0, 2⟩ none) {} ⟨0, deafLedger⟩).2.2.2.2.1 _ hturned).2.2.2 rfl _

end LedgerClient
