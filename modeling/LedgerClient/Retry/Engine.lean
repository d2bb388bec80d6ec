import LedgerClient.Network.Selection
import LedgerClient.Retry.Backoff
import LedgerClient.Retry.Verdict
import LedgerClient.Wire.Binary

/-!
# `LedgerClient.Retry.Engine`: one request, many attempts

A request is carried out by calling one node after another until an
answer settles it or its budget is used up. Before each attempt the
engine stops if the caller has cancelled or the deadline has passed;
after a failed one it stops if no attempt is left, and otherwise
waits, and the wait ends early at a cancellation or the deadline. A
cancellation wins over the deadline, and the deadline over the end of
the wait.

Time and the outside are explicit. A `Transport` says what a call
brings and how long that takes, from a state `σ` of the outside that
each call may change, and how long a timer really runs; a `Scene` is
that state and the time. Waits are measured by timers, while the limit
of an attempt and the deadline are instants that are compared. An answer
that takes longer than the attempt may last is not waited for: at the
limit, the attempt ends as a fault. An answer that takes no time is
never cut, even when the limit is zero.

`attempt` is one step and touches the network's health once at most,
so runs that share a network can be interleaved step by step.
`advance` repeats it; it is a recursion on the attempts that are left.
-/

set_option autoImplicit false

namespace LedgerClient

/-- A call as the outside receives it. -/
structure Call where
  time : Time
  node : Node
  request : Bytes
deriving DecidableEq

/-- What a call brings: after how long, if ever, and what. -/
structure Reply where
  latency : Option Duration
  outcome : Except Fault Bytes

/-- How the outside, in some state, answers calls. -/
structure Transport (σ : Type) where
  call : σ → Call → Reply × σ
  /-- How long a timer runs that is set to a length of time. -/
  timer : Duration → Duration := id

/-- The time, and the state of the outside. -/
structure Scene (σ : Type) where
  now : Time
  world : σ

/-- A call, when it ended, and how. -/
structure Exchange where
  call : Call
  ended : Time
  outcome : Except Fault Bytes

/-- What is executed: how to ask a node, how to judge its answer, and what the answer means. -/
structure Executable (α : Type) where
  transactionId : Option TransactionId
  /-- The nodes that may be asked; all of the network when not given. -/
  nodeIds : Option (List AccountId)
  request : Node → Except Error Bytes
  verdict : Wire.Response → Verdict
  result : Node → Wire.Response → Except Error α

/-- A caller's settings for one request; what is not given comes from the client. -/
structure ExecuteOptions (σ : Type) where
  maxAttempts : Option UInt32 := none
  minBackoff : Option Duration := none
  maxBackoff : Option Duration := none
  requestTimeout : Option Duration := none
  deadline : Option Time := none
  /-- When the caller cancels, as far as the state of the outside tells. -/
  cancelledAt : σ → Option Time := fun _ => none

/-- What a request may use up. -/
structure Budget where
  maxAttempts : Nat
  backoff : Backoff
  requestTimeout : Duration
  deadline : Option Time

namespace Budget

/-- The budget of a request that starts now. A deadline of the client counts from now. -/
def resolve {σ : Type} (config : ClientConfig) (options : ExecuteOptions σ) (now : Time) :
    Except Error Budget :=
  let maxAttempts := options.maxAttempts.getD config.maxAttempts
  if maxAttempts = 0 then .error (.invalidArgument .noAttempts)
  else .ok {
    maxAttempts := maxAttempts.toNat
    backoff := .ofBounds (options.minBackoff.getD (milliseconds config.minBackoffMs))
      (options.maxBackoff.getD (milliseconds config.maxBackoffMs))
    requestTimeout := options.requestTimeout.getD (milliseconds config.requestTimeoutMs)
    deadline := options.deadline.or (config.deadlineMs.map fun ms => now + milliseconds ms) }

/-- Whether the deadline has passed. -/
def deadlinePassed (b : Budget) (now : Time) : Bool :=
  match b.deadline with
  | some deadline => deadline ≤ now
  | none => false

/-- How long an attempt may last that starts now: not beyond the deadline. -/
def attemptLimit (b : Budget) (now : Time) : Duration :=
  match b.deadline with
  | some deadline => min b.requestTimeout (deadline - now)
  | none => b.requestTimeout

end Budget

/-- How a wait ends, and when. -/
inductive Pause where
  | resume (time : Time)
  | cancelled (time : Time)
  | deadline (time : Time)
deriving DecidableEq, Repr

/-- The wait until `time`, unless the deadline ends it. -/
def Pause.beforeDeadline (deadline : Option Time) (now time : Time) : Pause :=
  match deadline with
  | some d => if d ≤ time then .deadline (max now d) else .resume time
  | none => .resume time

/-- When a pause ends. -/
def Pause.time : Pause → Time
  | resume t | cancelled t | deadline t => t

/-- How a wait of a given length ends that starts now. -/
def Pause.ofWait (cancelledAt deadline : Option Time) (now : Time) (wait : Duration) : Pause :=
  let pause := beforeDeadline deadline now (now + wait)
  match cancelledAt with
  | some c => if c ≤ pause.time then .cancelled (max now c) else pause
  | none => pause

/-- How far a request has come. -/
structure Progress (σ : Type) where
  scene : Scene σ
  network : Network
  selection : Selection
  attempts : Nat
  last : Option AttemptFailure
  exchanges : List Exchange

/-- A request that has ended: its result, the state it leaves, and the calls it made. -/
structure Run (σ α : Type) where
  result : Except Error α
  scene : Scene σ
  network : Network
  exchanges : List Exchange

/-- How an attempt ended: with the result of the request, or with a failure that is worth
another attempt. -/
inductive Attempt (α : Type) where
  | settled (result : Except Error α)
  | failed (failure : AttemptFailure)

namespace Progress

variable {σ α : Type}

/-- The end of a request with the given result. -/
def finish (p : Progress σ) (result : Except Error α) : Run σ α :=
  ⟨result, p.scene, p.network, p.exchanges⟩

/-- The request at a later time. -/
def later (p : Progress σ) (now : Time) : Progress σ :=
  { p with scene := { p.scene with now := now } }

/-- A call, cut off at the limit of the attempt. -/
def exchange (transport : Transport σ) (budget : Budget) (scene : Scene σ) (call : Call) :
    Exchange × Scene σ :=
  let (reply, world) := transport.call scene.world call
  let limit := budget.attemptLimit scene.now
  match reply.latency with
  | some latency =>
    if latency ≤ limit then
      (⟨call, scene.now + latency, reply.outcome⟩, ⟨scene.now + latency, world⟩)
    else (⟨call, scene.now + limit, .error .timeout⟩, ⟨scene.now + limit, world⟩)
  | none => (⟨call, scene.now + limit, .error .timeout⟩, ⟨scene.now + limit, world⟩)

/-- What an answer means for the request. -/
def judge (exec : Executable α) (node : Node) (attempts : Nat) (bytes : Bytes) : Attempt α :=
  match Wire.Response.codec.decoded bytes with
  | .error e => .settled (.error e)
  | .ok response =>
    match exec.verdict response with
    | .finished => .settled (exec.result node response)
    | .retry status => .failed (.status node.accountId status)
    | .error status =>
      .settled (.error (.precheck status exec.transactionId node.accountId attempts))
    | .expired status => .settled (.error (.expired status node.accountId attempts))

/-- One attempt: a node is chosen and called, and its record changed by what came back. Any
bytes at all clear the record. -/
def attempt (transport : Transport σ) (budget : Budget) (exec : Executable α)
    (p : Progress σ) : Attempt α × Progress σ :=
  let (node, selection) := p.selection.next (p.network.isHealthy p.scene.now)
  let p := { p with selection := selection, attempts := p.attempts + 1 }
  match exec.request node with
  | .error e => (.settled (.error e), p)
  | .ok request =>
    let (x, scene) := exchange transport budget p.scene ⟨p.scene.now, node, request⟩
    let p := { p with scene := scene, exchanges := p.exchanges ++ [x] }
    match x.outcome with
    | .error fault =>
      let failure := AttemptFailure.transport node.accountId fault
      (.failed failure,
        { p with
          network := p.network.markUnhealthy scene.now node.accountId
          last := some failure })
    | .ok bytes =>
      let verdict := judge exec node p.attempts bytes
      let last := match verdict with
        | .failed failure => some failure
        | .settled _ => p.last
      (verdict, { p with network := p.network.markHealthy node.accountId, last := last })

/-- Whether the caller has cancelled by now. -/
def cancelled (cancelledAt : σ → Option Time) (p : Progress σ) : Bool :=
  match cancelledAt p.scene.world with
  | some t => t ≤ p.scene.now
  | none => false

/-- The rest of a request that may still make `left` attempts. -/
def advance (transport : Transport σ) (budget : Budget) (cancelledAt : σ → Option Time)
    (exec : Executable α) : Nat → Progress σ → Run σ α
  | 0, p => p.finish (.error (.maxAttemptsExceeded p.attempts p.last))
  | left + 1, p =>
    if p.cancelled cancelledAt then p.finish (.error (.cancelled p.attempts p.last))
    else if budget.deadlinePassed p.scene.now then
      p.finish (.error (.deadlineExceeded p.attempts p.last))
    else match p.attempt transport budget exec with
      | (.settled result, p) => p.finish result
      | (.failed _, p) =>
        if left = 0 then p.finish (.error (.maxAttemptsExceeded p.attempts p.last))
        else
          let wait := transport.timer (budget.backoff.delay p.attempts)
          match Pause.ofWait (cancelledAt p.scene.world) budget.deadline p.scene.now wait with
          | .cancelled t => (p.later t).finish (.error (.cancelled p.attempts p.last))
          | .deadline t => (p.later t).finish (.error (.deadlineExceeded p.attempts p.last))
          | .resume t => advance transport budget cancelledAt exec left (p.later t)

end Progress

/-- The nodes that a request may ask, and the network after they were looked up: a request
for any node moves the cursor on. -/
def candidates {α : Type} (network : Network) (exec : Executable α) :
    Except Error (Selection × Network) :=
  match exec.nodeIds with
  | some ids => (network.selectionFor ids).map fun selection => (selection, network)
  | none => .ok network.selection

/-- Carries out a request to its end. -/
def execute {σ α : Type} (transport : Transport σ) (config : ClientConfig) (network : Network)
    (exec : Executable α) (options : ExecuteOptions σ) (scene : Scene σ) : Run σ α :=
  match Budget.resolve config options scene.now with
  | .error e => ⟨.error e, scene, network, []⟩
  | .ok budget =>
    match candidates network exec with
    | .error e => ⟨.error e, scene, network, []⟩
    | .ok (selection, network) =>
      Progress.advance transport budget options.cancelledAt exec budget.maxAttempts
        ⟨scene, network, selection, 0, none, []⟩

end LedgerClient
