import LedgerClient.Proofs.Network.Selection
import LedgerClient.Proofs.Splits
import LedgerClient.Retry.Engine

/-!
# `LedgerClient.Proofs.Retry.Run`: what a run is made of

`Progress.advance` is one loop with six ways out. This module takes it
apart once, so that the laws of a run are proved without opening it
again:

* `Exchange.FailsWith` and `Exchange.Settles` say what an exchange
  means for the request, in terms of its outcome alone.
* `Progress.Calls` says everything that one call does to the progress
  of a request, and `Progress.attempted` that an attempt is such a call
  or ends before it.
* `Progress.Reached` is every state in which a run stands before an
  attempt, `Progress.Ended` every way in which it ends from there, and
  `Progress.advance_ended` that a run is a chain of the first with one
  of the second at its end.

A law of a run is then an invariant that `Calls` keeps, an induction on
`Reached`, and a case split on `Ended`.

The list of exchanges that a run leaves is tied to the outside by
`Transport.Traced`: every exchange in it is what the transport brings in
the state in which the calls before it left the outside. A run with no
other calls is what `Progress.Recorded.world` says: the state that it
leaves is the one after exactly these calls.
-/

set_option autoImplicit false

namespace LedgerClient

variable {σ α : Type}

/-! ### What an exchange means -/

namespace Exchange

/-- The exchange is worth another attempt: it ended in a fault, of the transport or because it
took too long, or the node put the request off. -/
inductive FailsWith (exec : Executable α) (x : Exchange) : AttemptFailure → Prop
  | fault {fault : Fault} (outcome : x.outcome = .error fault) :
      FailsWith exec x (.transport x.call.node.accountId fault)
  | status {bytes : Bytes} {response : Wire.Response} {status : Status}
      (outcome : x.outcome = .ok bytes)
      (decoded : Wire.Response.codec.decode? bytes = some response)
      (verdict : exec.verdict response = .retry status) :
      FailsWith exec x (.status x.call.node.accountId status)

/-- The exchange is the end of a request of which it is the attempt with that number, and
decides its result. -/
inductive Settles (exec : Executable α) (attempts : Nat) (x : Exchange) : Except Error α → Prop
  | finished {bytes : Bytes} {response : Wire.Response}
      (outcome : x.outcome = .ok bytes)
      (decoded : Wire.Response.codec.decode? bytes = some response)
      (verdict : exec.verdict response = .finished) :
      Settles exec attempts x (exec.result x.call.node response)
  | refused {bytes : Bytes} {response : Wire.Response} {status : Status}
      (outcome : x.outcome = .ok bytes)
      (decoded : Wire.Response.codec.decode? bytes = some response)
      (verdict : exec.verdict response = .error status) :
      Settles exec attempts x
        (.error (.precheck status exec.transactionId x.call.node.accountId attempts))
  | expired {bytes : Bytes} {response : Wire.Response} {status : Status}
      (outcome : x.outcome = .ok bytes)
      (decoded : Wire.Response.codec.decode? bytes = some response)
      (verdict : exec.verdict response = .expired status) :
      Settles exec attempts x (.error (.expired status x.call.node.accountId attempts))
  | undecodable {bytes : Bytes}
      (outcome : x.outcome = .ok bytes)
      (decoded : Wire.Response.codec.decode? bytes = none) :
      Settles exec attempts x (.error (.codec .undecodable))

/-- An exchange that settles the request is not worth another attempt. -/
theorem Settles.not_failsWith {exec : Executable α} {attempts : Nat} {x : Exchange}
    {result : Except Error α} (h : x.Settles exec attempts result) (failure : AttemptFailure) :
    ¬ x.FailsWith exec failure := by
  intro hf
  cases hf <;> cases h <;> simp_all

/-- What an exchange decides is a function of the exchange. -/
theorem Settles.unique {exec : Executable α} {attempts : Nat} {x : Exchange}
    {result result' : Except Error α} (h : x.Settles exec attempts result)
    (h' : x.Settles exec attempts result') : result = result' := by
  cases h <;> cases h' <;> simp_all

/-- What an exchange does to the record of the node that was called: any bytes clear it. -/
def mark (x : Exchange) (net : Network) : Network :=
  match x.outcome with
  | .error _ => net.markUnhealthy x.ended x.call.node.accountId
  | .ok _ => net.markHealthy x.call.node.accountId

end Exchange

namespace Progress

/-- `judge` is the two relations above, as a function of the bytes that came back. -/
theorem judge_spec (exec : Executable α) (attempts : Nat) {x : Exchange} {bytes : Bytes}
    (hx : x.outcome = .ok bytes) :
    match judge exec x.call.node attempts bytes with
    | .failed failure => x.FailsWith exec failure
    | .settled result => x.Settles exec attempts result := by
  unfold judge Wire.Codec.decoded
  -- A message that can be read has one of four verdicts.
  cases hd : Wire.Response.codec.decode? bytes with
  | none => exact .undecodable hx hd
  | some response =>
    simp only
    cases hv : exec.verdict response with
    | finished => exact .finished hx hd hv
    | retry status => exact .status hx hd hv
    | error status => exact .refused hx hd hv
    | expired status => exact .expired hx hd hv

/-! ### One attempt -/

/-- What one call does to the progress of a request: `p` becomes `q` by the exchange `x`. The
result of the attempt and the last failure are left to `Attempted`. -/
structure Calls (transport : Transport σ) (budget : Budget) (exec : Executable α)
    (p : Progress σ) (x : Exchange) (q : Progress σ) : Prop where
  time : x.call.time = p.scene.now
  node : x.call.node = (p.selection.next (p.network.isHealthy p.scene.now)).1
  request : exec.request x.call.node = .ok x.call.request
  exchange : exchange transport budget p.scene x.call = (x, q.scene)
  selection : q.selection = (p.selection.next (p.network.isHealthy p.scene.now)).2
  attempts : q.attempts = p.attempts + 1
  network : q.network = x.mark p.network
  exchanges : q.exchanges = p.exchanges ++ [x]

/-- Every way in which an attempt can go: there is no request for the node that was chosen, or
the node is called and its answer is worth another attempt, or it settles the request. -/
inductive Attempted (transport : Transport σ) (budget : Budget) (exec : Executable α)
    (p : Progress σ) : Attempt α × Progress σ → Prop
  | unasked {e : Error}
      (request :
        exec.request (p.selection.next (p.network.isHealthy p.scene.now)).1 = .error e) :
      Attempted transport budget exec p (.settled (.error e),
        { p with
          selection := (p.selection.next (p.network.isHealthy p.scene.now)).2
          attempts := p.attempts + 1 })
  | failed {x : Exchange} {failure : AttemptFailure} {q : Progress σ}
      (call : p.Calls transport budget exec x q) (fails : x.FailsWith exec failure)
      (last : q.last = some failure) :
      Attempted transport budget exec p (.failed failure, q)
  | settled {x : Exchange} {result : Except Error α} {q : Progress σ}
      (call : p.Calls transport budget exec x q) (settles : x.Settles exec q.attempts result) :
      Attempted transport budget exec p (.settled result, q)

section
variable (transport : Transport σ) (budget : Budget)

/-- Both ways in which an exchange can go: the reply comes within the limit of the attempt, or
the attempt ends as a fault at its limit. -/
theorem exchange_cases (scene : Scene σ) (call : Call) :
    let reply := (transport.call scene.world call).1
    let world := (transport.call scene.world call).2
    let limit := budget.attemptLimit scene.now
    (∃ latency, reply.latency = some latency ∧ latency ≤ limit ∧
      exchange transport budget scene call =
        (⟨call, scene.now + latency, reply.outcome⟩, ⟨scene.now + latency, world⟩)) ∨
    ((∀ latency, reply.latency = some latency → limit < latency) ∧
      exchange transport budget scene call =
        (⟨call, scene.now + limit, .error .timeout⟩, ⟨scene.now + limit, world⟩)) := by
  intro reply world limit
  unfold exchange
  -- A reply comes in time, or too late, or never.
  cases hl : reply.latency with
  | none => exact .inr ⟨nofun, by simp [reply, limit, world, hl]⟩
  | some latency =>
    by_cases hle : latency ≤ limit
    · exact .inl ⟨latency, rfl, hle, by simp [reply, limit, world, hl, hle]⟩
    · refine .inr ⟨fun _ h => ?_, by simp [reply, limit, world, hl, hle]⟩
      cases h
      exact Nat.lt_of_not_le hle

/-- An exchange is about the call that was made. The scene after it is at its end, and the
outside is as the call left it. -/
theorem exchange_after (scene : Scene σ) (call : Call) :
    (exchange transport budget scene call).1.call = call ∧
      (exchange transport budget scene call).2 =
        ⟨(exchange transport budget scene call).1.ended, (transport.call scene.world call).2⟩ := by
  rcases exchange_cases transport budget scene call with ⟨_, _, _, h⟩ | ⟨_, h⟩ <;> rw [h] <;>
    exact ⟨rfl, rfl⟩

/-- An exchange takes no more than the limit of its attempt. -/
theorem exchange_ended (scene : Scene σ) (call : Call) :
    scene.now ≤ (exchange transport budget scene call).1.ended ∧
      (exchange transport budget scene call).1.ended ≤
        scene.now + budget.attemptLimit scene.now := by
  rcases exchange_cases transport budget scene call with ⟨_, _, hle, h⟩ | ⟨_, h⟩ <;> rw [h]
  · exact ⟨Nat.le_add_right _ _, Nat.add_le_add_left hle _⟩
  · exact ⟨Nat.le_add_right _ _, Nat.le_refl _⟩

/-- After a call it is the end of its exchange, and the outside is as the call left it. -/
theorem Calls.scene {transport : Transport σ} {budget : Budget} {exec : Executable α}
    {p q : Progress σ} {x : Exchange} (h : p.Calls transport budget exec x q) :
    q.scene = ⟨x.ended, (transport.call p.scene.world x.call).2⟩ := by
  have hafter := (exchange_after transport budget p.scene x.call).2
  simpa only [h.exchange] using hafter

/-- A call takes no more than the limit of its attempt. -/
theorem Calls.ended {transport : Transport σ} {budget : Budget} {exec : Executable α}
    {p q : Progress σ} {x : Exchange} (h : p.Calls transport budget exec x q) :
    p.scene.now ≤ q.scene.now ∧ q.scene.now ≤ p.scene.now + budget.attemptLimit p.scene.now := by
  have hended := exchange_ended transport budget p.scene x.call
  rw [h.exchange] at hended
  rwa [h.scene]

/-- Everything that an attempt can do. -/
theorem attempted (exec : Executable α) (p : Progress σ) :
    Attempted transport budget exec p (p.attempt transport budget exec) := by
  unfold attempt
  simp only
  cases hr : exec.request (p.selection.next (p.network.isHealthy p.scene.now)).1 with
  | error e => exact .unasked hr
  | ok request =>
    simp only
    generalize hn : (p.selection.next (p.network.isHealthy p.scene.now)).1 = node at hr
    generalize hx : exchange transport budget p.scene ⟨p.scene.now, node, request⟩ = made
    obtain ⟨x, scene⟩ := made
    obtain ⟨hcall, hscene⟩ :=
      exchange_after transport budget p.scene ⟨p.scene.now, node, request⟩
    simp only [hx] at hcall hscene
    have hended : x.ended = scene.now := by rw [hscene]
    have hnode : x.call.node = node := by rw [hcall]
    -- Whatever the outcome, the call changes everything but the result in the same way.
    have hmade (last : Option AttemptFailure) :
        p.Calls transport budget exec x
          { p with
            scene := scene
            selection := (p.selection.next (p.network.isHealthy p.scene.now)).2
            attempts := p.attempts + 1
            network := x.mark p.network
            last := last
            exchanges := p.exchanges ++ [x] } :=
      ⟨by rw [hcall], by rw [hnode, hn], by rw [hnode, hcall]; exact hr, by rw [hcall]; exact hx,
        rfl, rfl, rfl, rfl⟩
    -- A fault is a failure at once, and bytes are judged.
    cases ho : x.outcome with
    | error fault =>
      have h := Attempted.failed (hmade _) (.fault ho) rfl
      simpa [Exchange.mark, ho, hended, hnode] using h
    | ok bytes =>
      have hj := judge_spec exec (p.attempts + 1) ho
      rw [hnode] at hj
      cases hv : judge exec node (p.attempts + 1) bytes with
      | failed failure =>
        rw [hv] at hj
        have h := Attempted.failed (hmade _) hj rfl
        simpa [Exchange.mark, ho, hnode, hv] using h
      | settled result =>
        rw [hv] at hj
        have h := Attempted.settled (hmade p.last) hj
        simpa [Exchange.mark, ho, hnode, hv] using h

end

section
variable {transport : Transport σ} {budget : Budget} {exec : Executable α} {p q : Progress σ}

/-- An attempt that is worth another one is a call that failed. -/
theorem of_attempt_failed {failure : AttemptFailure}
    (h : p.attempt transport budget exec = (.failed failure, q)) :
    ∃ x, p.Calls transport budget exec x q ∧ x.FailsWith exec failure ∧ q.last = some failure := by
  have ha := attempted transport budget exec p
  rw [h] at ha
  cases ha with
  | failed call fails last => exact ⟨_, call, fails, last⟩

/-- An attempt that settles the request is a call that does, unless there is no request for the
node that was chosen. -/
theorem of_attempt_settled {result : Except Error α}
    (h : p.attempt transport budget exec = (.settled result, q)) :
    (∃ x, p.Calls transport budget exec x q ∧ x.Settles exec q.attempts result) ∨
      ∃ e, result = .error e ∧
        exec.request (p.selection.next (p.network.isHealthy p.scene.now)).1 = .error e ∧
        q.exchanges = p.exchanges ∧ q.scene = p.scene := by
  have ha := attempted transport budget exec p
  rw [h] at ha
  cases ha with
  | settled call settles => exact .inl ⟨_, call, settles⟩
  | unasked request => exact .inr ⟨_, rfl, request, rfl, rfl⟩

end

end Progress

/-! ### The calls of a run and the outside -/

namespace Transport

/-- The state of the outside after some calls, one after the other. -/
def after (transport : Transport σ) (world : σ) (exchanges : List Exchange) : σ :=
  exchanges.foldl (fun world x => (transport.call world x.call).2) world

/-- Every exchange is what comes of its call in the state that the ones before it leave. -/
def Traced (transport : Transport σ) (budget : Budget) (world : σ)
    (exchanges : List Exchange) : Prop :=
  ∀ xs x ys, exchanges = xs ++ x :: ys →
    (Progress.exchange transport budget ⟨x.call.time, transport.after world xs⟩ x.call).1 = x

/-- Without calls the outside stays as it is. -/
@[simp] theorem after_nil (transport : Transport σ) (world : σ) :
    transport.after world [] = world := rfl

/-- The last call is made to what the others have left. -/
theorem after_concat (transport : Transport σ) (world : σ) (xs : List Exchange) (x : Exchange) :
    transport.after world (xs ++ [x]) = (transport.call (transport.after world xs) x.call).2 := by
  simp [after]

/-- Calls leave the outside one after the other. -/
theorem after_append (transport : Transport σ) (world : σ) (xs ys : List Exchange) :
    transport.after world (xs ++ ys) = transport.after (transport.after world xs) ys :=
  List.foldl_append

end Transport

namespace Progress

/-- What the progress of a request that began at `start` says about its calls: each went to a
candidate, with the request for it, and they are the calls that the outside has seen. -/
structure Recorded (transport : Transport σ) (budget : Budget) (exec : Executable α)
    (start p : Progress σ) : Prop where
  candidates : p.selection.candidates = start.selection.candidates
  asked : ∀ x ∈ p.exchanges,
    x.call.node ∈ start.selection.candidates ∧ exec.request x.call.node = .ok x.call.request
  traced : transport.Traced budget start.scene.world p.exchanges
  world : p.scene.world = transport.after start.scene.world p.exchanges

end Progress

namespace Progress

/-- Nothing has been called at the start. -/
theorem recorded_start (transport : Transport σ) (budget : Budget) (exec : Executable α)
    {start : Progress σ} (h : start.exchanges = []) :
    Recorded transport budget exec start start where
  candidates := rfl
  asked := by simp [h]
  traced := by simp [h, Transport.Traced]
  world := by simp [h]

section
variable {transport : Transport σ} {budget : Budget} {exec : Executable α} {start p q : Progress σ}
  {x : Exchange}

/-- A call is recorded where it belongs: at the end of those before it. -/
theorem Recorded.call (h : Recorded transport budget exec start p)
    (hc : p.Calls transport budget exec x q) : Recorded transport budget exec start q where
  candidates := by rw [hc.selection, Selection.next_candidates, h.candidates]
  asked y hy := by
    rw [hc.exchanges] at hy
    rcases List.mem_append.1 hy with hy | hy
    · exact h.asked y hy
    · -- The new call goes to a choice of the selection, and choices are candidates.
      cases List.mem_singleton.1 hy
      refine ⟨?_, hc.request⟩
      rw [hc.node, ← h.candidates]
      exact Selection.next_mem _ _
  traced := by
    rw [hc.exchanges]
    refine forall_splits_concat h.traced ?_
    -- The call was made in the state that the calls before it had left.
    have hscene : (⟨x.call.time, transport.after start.scene.world p.exchanges⟩ : Scene σ) =
        p.scene := by
      rw [hc.time, ← h.world]
    rw [hscene, hc.exchange]
  world := by rw [hc.exchanges, Transport.after_concat, ← h.world, hc.scene]

/-- Time passes without a call. -/
theorem Recorded.later (h : Recorded transport budget exec start p) (t : Time) :
    Recorded transport budget exec start (p.later t) :=
  ⟨h.candidates, h.asked, h.traced, h.world⟩

end

/-! ### A whole run -/

section
variable (transport : Transport σ) (budget : Budget) (cancelledAt : σ → Option Time)
  (exec : Executable α)

/-- Nothing stops a request from making an attempt: it is not cancelled, and its deadline has
not passed. -/
structure Open (p : Progress σ) : Prop where
  uncancelled : p.cancelled cancelledAt = false
  intime : budget.deadlinePassed p.scene.now = false

/-- The wait after a failed attempt. -/
def pause (p : Progress σ) : Pause :=
  Pause.ofWait (cancelledAt p.scene.world) budget.deadline p.scene.now
    (transport.timer (budget.backoff.delay p.attempts))

/-- The states in which a request stands before an attempt, with the number of attempts that
may follow that one: the first, and after each failed attempt the end of the wait. -/
inductive Reached (limit : Nat) (start : Progress σ) : Nat → Progress σ → Prop
  | start : Reached limit start limit start
  | again {left : Nat} {p q : Progress σ} {failure : AttemptFailure} {t : Time}
      (reached : Reached limit start (left + 1) p) (isOpen : p.Open budget cancelledAt)
      (attempt : p.attempt transport budget exec = (.failed failure, q))
      (pause : q.pause transport budget cancelledAt = .resume t) :
      Reached limit start left (q.later t)

/-- Every way in which a request ends that stands before an attempt. -/
inductive Ended (left : Nat) (p : Progress σ) : Run σ α → Prop
  | cancelled (cancelled : p.cancelled cancelledAt = true) :
      Ended left p (p.finish (.error (.cancelled p.attempts p.last)))
  | overdue (uncancelled : p.cancelled cancelledAt = false)
      (overdue : budget.deadlinePassed p.scene.now = true) :
      Ended left p (p.finish (.error (.deadlineExceeded p.attempts p.last)))
  | settled {result : Except Error α} {q : Progress σ} (isOpen : p.Open budget cancelledAt)
      (attempt : p.attempt transport budget exec = (.settled result, q)) :
      Ended left p (q.finish result)
  | spent {failure : AttemptFailure} {q : Progress σ} (isOpen : p.Open budget cancelledAt)
      (attempt : p.attempt transport budget exec = (.failed failure, q)) (left_eq : left = 0) :
      Ended left p (q.finish (.error (.maxAttemptsExceeded q.attempts q.last)))
  | cancelledWaiting {failure : AttemptFailure} {q : Progress σ} {t : Time}
      (isOpen : p.Open budget cancelledAt)
      (attempt : p.attempt transport budget exec = (.failed failure, q)) (left_ne : left ≠ 0)
      (pause : q.pause transport budget cancelledAt = .cancelled t) :
      Ended left p ((q.later t).finish (.error (.cancelled q.attempts q.last)))
  | overdueWaiting {failure : AttemptFailure} {q : Progress σ} {t : Time}
      (isOpen : p.Open budget cancelledAt)
      (attempt : p.attempt transport budget exec = (.failed failure, q)) (left_ne : left ≠ 0)
      (pause : q.pause transport budget cancelledAt = .deadline t) :
      Ended left p ((q.later t).finish (.error (.deadlineExceeded q.attempts q.last)))

/-- One step of the loop: the request ends here, or it comes to stand before another attempt
with everything that follows still to come. -/
theorem advance_step (left : Nat) (p : Progress σ) :
    Ended transport budget cancelledAt exec left p
        (advance transport budget cancelledAt exec (left + 1) p) ∨
      ∃ left' q failure t, left = left' + 1 ∧ p.Open budget cancelledAt ∧
        p.attempt transport budget exec = (.failed failure, q) ∧
        q.pause transport budget cancelledAt = .resume t ∧
        advance transport budget cancelledAt exec (left + 1) p =
          advance transport budget cancelledAt exec (left' + 1) (q.later t) := by
  -- In the order of the loop: both checks, the attempt, and the wait if an attempt is left.
  rw [advance]
  split
  · exact .inl (.cancelled ‹_›)
  next hc =>
  split
  · exact .inl (.overdue (by simpa using hc) ‹_›)
  next hd =>
  have hopen : p.Open budget cancelledAt := ⟨by simpa using hc, by simpa using hd⟩
  -- An attempt settles the request, or leaves it to be tried again while one is left.
  rcases ha : p.attempt transport budget exec with ⟨result | failure, q⟩
  · exact .inl (.settled hopen ha)
  · cases left with
    | zero => exact .inl (.spent hopen ha rfl)
    | succ left =>
      cases hp : q.pause transport budget cancelledAt with
      | cancelled t =>
        have h := Ended.cancelledWaiting hopen ha (Nat.succ_ne_zero left) hp
        rw [pause] at hp
        simpa [hp] using .inl h
      | deadline t =>
        have h := Ended.overdueWaiting hopen ha (Nat.succ_ne_zero left) hp
        rw [pause] at hp
        simpa [hp] using .inl h
      | resume t =>
        refine .inr ⟨left, q, failure, t, rfl, hopen, rfl, hp, ?_⟩
        rw [pause] at hp
        simp [hp]

end

section
variable {transport : Transport σ} {budget : Budget} {cancelledAt : σ → Option Time}
  {exec : Executable α} {limit : Nat} {start : Progress σ}

/-- What follows a state that a request has reached is the rest of its run. -/
theorem Reached.advance_eq {left : Nat} {p : Progress σ}
    (h : Reached transport budget cancelledAt exec limit start left p) :
    advance transport budget cancelledAt exec (limit + 1) start =
      advance transport budget cancelledAt exec (left + 1) p := by
  induction h with
  | start => rfl
  | @again left p q failure t _ isOpen attempt pause ih =>
    -- One turn of the loop, of which everything is known but what follows the wait.
    rw [ih, advance]
    rw [Progress.pause] at pause
    simp [isOpen.uncancelled, isOpen.intime, attempt, pause]

/-- Every state that a request reaches records the calls that led there. -/
theorem Reached.recorded {left : Nat} {p : Progress σ} (hstart : start.exchanges = [])
    (h : Reached transport budget cancelledAt exec limit start left p) :
    Recorded transport budget exec start p := by
  induction h with
  | start => exact recorded_start transport budget exec hstart
  | again _ _ attempt _ ih =>
    obtain ⟨x, call, -, -⟩ := of_attempt_failed attempt
    exact (ih.call call).later _

/-- The attempts made and the attempts left are together what they were at the start. -/
theorem Reached.attempts_add_left {left : Nat} {p : Progress σ}
    (h : Reached transport budget cancelledAt exec limit start left p) :
    p.attempts + left = start.attempts + limit := by
  induction h with
  | start => rfl
  | @again left p q failure t _ _ attempt _ ih =>
    obtain ⟨x, call, -, -⟩ := of_attempt_failed attempt
    show q.attempts + left = _
    rw [call.attempts, ← ih]
    omega

/-- A run is a chain of failed attempts and waits with one of the six endings. -/
theorem advance_ended (limit : Nat) (start : Progress σ) :
    ∃ left p, Reached transport budget cancelledAt exec limit start left p ∧
      Ended transport budget cancelledAt exec left p
        (advance transport budget cancelledAt exec (limit + 1) start) := by
  -- From every state that is reached, by induction on the attempts that are left there.
  suffices h : ∀ left p, Reached transport budget cancelledAt exec limit start left p →
      ∃ left' q, Reached transport budget cancelledAt exec limit start left' q ∧
        Ended transport budget cancelledAt exec left' q
          (advance transport budget cancelledAt exec (left + 1) p) from
    h limit start .start
  intro left
  induction left with
  | zero =>
    intro p hp
    rcases advance_step transport budget cancelledAt exec 0 p with h | ⟨_, _, _, _, h, _⟩
    · exact ⟨0, p, hp, h⟩
    · omega
  | succ left ih =>
    intro p hp
    rcases advance_step transport budget cancelledAt exec (left + 1) p with
      h | ⟨left', q, failure, t, hl, hopen, ha, hpause, heq⟩
    · exact ⟨left + 1, p, hp, h⟩
    · cases hl
      rw [heq]
      exact ih _ (.again hp hopen ha hpause)

/-- A run that ends leaves the state before the attempt, or the one after its call, with or
without the wait that follows. -/
theorem Ended.final {left : Nat} {p : Progress σ} {run : Run σ α}
    (h : Ended transport budget cancelledAt exec left p run) :
    (run.exchanges = p.exchanges ∧ run.scene = p.scene) ∨
      ∃ x q, p.Open budget cancelledAt ∧ p.Calls transport budget exec x q ∧
        run.exchanges = q.exchanges ∧
        (run.scene = q.scene ∨
          run.scene = (q.later (q.pause transport budget cancelledAt).time).scene) := by
  -- In two of the six endings there was no call, and in one more there may have been none.
  cases h with
  | cancelled => exact .inl ⟨rfl, rfl⟩
  | overdue => exact .inl ⟨rfl, rfl⟩
  | settled isOpen attempt =>
    rcases of_attempt_settled attempt with ⟨x, call, -⟩ | ⟨e, -, -, hexchanges, hscene⟩
    · exact .inr ⟨x, _, isOpen, call, rfl, .inl rfl⟩
    · exact .inl ⟨hexchanges, hscene⟩
  | spent isOpen attempt =>
    obtain ⟨x, call, -, -⟩ := of_attempt_failed attempt
    exact .inr ⟨x, _, isOpen, call, rfl, .inl rfl⟩
  | cancelledWaiting isOpen attempt _ pause =>
    obtain ⟨x, call, -, -⟩ := of_attempt_failed attempt
    exact .inr ⟨x, _, isOpen, call, rfl, .inr (by rw [pause]; rfl)⟩
  | overdueWaiting isOpen attempt _ pause =>
    obtain ⟨x, call, -, -⟩ := of_attempt_failed attempt
    exact .inr ⟨x, _, isOpen, call, rfl, .inr (by rw [pause]; rfl)⟩

/-- The calls that a run leaves are recorded, however it ends. -/
theorem Ended.recorded {left : Nat} {p : Progress σ} {run : Run σ α}
    (hp : Recorded transport budget exec start p)
    (h : Ended transport budget cancelledAt exec left p run) :
    ∃ q, Recorded transport budget exec start q ∧ run.exchanges = q.exchanges ∧
      run.scene = q.scene := by
  rcases h.final with ⟨hexchanges, hscene⟩ | ⟨x, q, -, call, hexchanges, hscene | hscene⟩
  · exact ⟨p, hp, hexchanges, hscene⟩
  · exact ⟨q, hp.call call, hexchanges, hscene⟩
  · exact ⟨q.later (q.pause transport budget cancelledAt).time, (hp.call call).later _,
      hexchanges, hscene⟩

end

/-- The progress of a request that begins. -/
def fresh (scene : Scene σ) (network : Network) (selection : Selection) : Progress σ :=
  ⟨scene, network, selection, 0, none, []⟩

end Progress

/-- A budget allows at least one attempt. -/
theorem Budget.resolve_maxAttempts {config : ClientConfig} {options : ExecuteOptions σ}
    {now : Time} {budget : Budget} (h : Budget.resolve config options now = .ok budget) :
    ∃ limit, budget.maxAttempts = limit + 1 := by
  unfold resolve at h
  simp only at h
  split at h
  · cases h
  next hmax =>
  cases h
  refine Nat.exists_eq_succ_of_ne_zero fun h0 => hmax ?_
  exact UInt32.toNat_inj.1 (by simpa using h0)

/-- A budget is only refused for what the caller gave. -/
theorem Budget.resolve_eq_error {config : ClientConfig} {options : ExecuteOptions σ} {now : Time}
    {e : Error} (h : Budget.resolve config options now = .error e) :
    ∃ fault, e = .invalidArgument fault := by
  unfold resolve at h
  simp only at h
  split at h
  · cases h
    exact ⟨_, rfl⟩
  · cases h

/-- The candidates are only refused for what the caller gave. -/
theorem candidates_eq_error {network : Network} {exec : Executable α} {e : Error}
    (h : candidates network exec = .error e) : ∃ fault, e = .invalidArgument fault := by
  unfold candidates at h
  cases hids : exec.nodeIds with
  | none => simp [hids] at h
  | some ids =>
    cases hs : network.selectionFor ids with
    | ok selection => simp [hids, hs, Except.map] at h
    | error e' =>
      simp only [hids, hs, Except.map, Except.error.injEq] at h
      exact Network.selectionFor_eq_error (h ▸ hs)

/-- A request has a budget and candidates, or it is refused for what the caller gave, without a
call and at once. -/
theorem execute_accepted_or_refused (transport : Transport σ) (config : ClientConfig)
    (network : Network) (exec : Executable α) (options : ExecuteOptions σ) (scene : Scene σ) :
    (∃ budget selection network', Budget.resolve config options scene.now = .ok budget ∧
      candidates network exec = .ok (selection, network')) ∨
    ∃ fault, (Budget.resolve config options scene.now = .error (.invalidArgument fault) ∨
        candidates network exec = .error (.invalidArgument fault)) ∧
      execute transport config network exec options scene =
        ⟨.error (.invalidArgument fault), scene, network, []⟩ := by
  unfold execute
  -- The budget is looked at before the candidates, so one of the two is at fault.
  cases hbudget : Budget.resolve config options scene.now with
  | error e =>
    obtain ⟨fault, rfl⟩ := Budget.resolve_eq_error hbudget
    exact .inr ⟨fault, .inl rfl, rfl⟩
  | ok budget =>
    cases hcand : candidates network exec with
    | error e =>
      obtain ⟨fault, rfl⟩ := candidates_eq_error hcand
      exact .inr ⟨fault, .inr rfl, rfl⟩
    | ok chosen => exact .inl ⟨budget, chosen.1, chosen.2, rfl, rfl⟩

/-- A request whose budget and candidates are accepted is the loop from the beginning. -/
theorem execute_eq_advance {transport : Transport σ} {config : ClientConfig} {network : Network}
    {exec : Executable α} {options : ExecuteOptions σ} {scene : Scene σ} {budget : Budget}
    {selection : Selection} {network' : Network}
    (hbudget : Budget.resolve config options scene.now = .ok budget)
    (hcand : candidates network exec = .ok (selection, network')) :
    execute transport config network exec options scene =
      Progress.advance transport budget options.cancelledAt exec budget.maxAttempts
        (.fresh scene network' selection) := by
  unfold execute
  rw [hbudget]
  simp only [hcand]
  rfl

/-- A run with accepted budget and candidates ends in one of the six ways, in a state that it has
reached from the beginning. -/
theorem execute_ended (transport : Transport σ) {config : ClientConfig} {network : Network}
    {exec : Executable α} (options : ExecuteOptions σ) {scene : Scene σ} {budget : Budget}
    {selection : Selection} {network' : Network}
    (hbudget : Budget.resolve config options scene.now = .ok budget)
    (hcand : candidates network exec = .ok (selection, network')) :
    ∃ limit left p, budget.maxAttempts = limit + 1 ∧
      Progress.Reached transport budget options.cancelledAt exec limit
        (.fresh scene network' selection) left p ∧
      Progress.Ended transport budget options.cancelledAt exec left p
        (execute transport config network exec options scene) := by
  obtain ⟨limit, hlimit⟩ := Budget.resolve_maxAttempts hbudget
  rw [execute_eq_advance hbudget hcand, hlimit]
  obtain ⟨left, p, hreached, hended⟩ :=
    Progress.advance_ended limit (.fresh scene network' selection)
  exact ⟨limit, left, p, rfl, hreached, hended⟩

/-- The calls of every run went to candidates, with the request for the node, and they are all
that the outside has seen of the run. -/
theorem execute_recorded (transport : Transport σ) {config : ClientConfig} {network : Network}
    {exec : Executable α} (options : ExecuteOptions σ) {scene : Scene σ} {budget : Budget}
    {selection : Selection} {network' : Network}
    (hbudget : Budget.resolve config options scene.now = .ok budget)
    (hcand : candidates network exec = .ok (selection, network')) :
    let run := execute transport config network exec options scene
    (∀ x ∈ run.exchanges,
        x.call.node ∈ selection.candidates ∧ exec.request x.call.node = .ok x.call.request) ∧
      transport.Traced budget scene.world run.exchanges ∧
      run.scene.world = transport.after scene.world run.exchanges := by
  intro run
  obtain ⟨limit, left, p, -, hreached, hended⟩ := execute_ended transport options hbudget hcand
  obtain ⟨q, hq, hexchanges, hscene⟩ := hended.recorded (hreached.recorded rfl)
  rw [hexchanges, hscene]
  exact ⟨hq.asked, hq.traced, hq.world⟩

end LedgerClient
