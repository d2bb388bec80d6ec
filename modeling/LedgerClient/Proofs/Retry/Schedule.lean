import LedgerClient.Proofs.Retry.Interruption
import Mathlib.Algebra.GroupWithZero.Nat
import Mathlib.Data.List.Induction
import Mathlib.Order.Bounds.Basic

/-!
# `LedgerClient.Proofs.Retry.Schedule`: when calls are made

Every instant of a run is determined by the calls and what they bring.
A call is due at the start or, after a call that failed, when the wait
that belongs to it is over: `Backoff.dueAfter`. It ends with whatever
comes first: its answer, the limit of an attempt, or the deadline:
`Exchange.Ends`.

* `Scheduled` says both of all calls of a run. It is an invariant of the
  states that a run reaches (`Reached.scheduled`).
* `Run.Concluded` says when the run itself ends. Nothing follows a call
  that settles the request or is the last one allowed, and otherwise
  something ends the wait after it.
* How long a run can take is then a sum (`Run.Concluded.now_le`), and a
  transport that never answers has no part in it.

Waits are measured by timers, so the law is about timers that fire when
they should. The limits of calls and the deadline are instants.
-/

set_option autoImplicit false

namespace LedgerClient

/-! ### Waits -/

namespace Backoff

/-- No wait is longer than the maximum. -/
theorem delay_le_max (b : Backoff) (retry : Nat) : b.delay retry ≤ b.max := by
  unfold delay
  by_cases hzero : retry = 0
  · rw [if_pos hzero]
    exact Nat.zero_le _
  rw [if_neg hzero]
  by_cases hlast : retry ≤ lastDoubling
  · rw [if_pos hlast]
    exact Nat.min_le_right _ _
  · rw [if_neg hlast]

/-- One more retry has one more wait, at the end. -/
theorem delays_succ (b : Backoff) (count : Nat) :
    b.delays (count + 1) = b.delays count ++ [b.delay (count + 1)] := by
  rw [delays, List.range_succ, List.map_append]
  rfl

/-- It takes as much longer. -/
theorem sum_delays_succ (b : Backoff) (count : Nat) :
    (b.delays (count + 1)).sum = (b.delays count).sum + b.delay (count + 1) := by
  rw [delays_succ, List.sum_append, List.sum_singleton]

/-- More waits take longer. -/
theorem sum_delays_mono (b : Backoff) {count count' : Nat} (h : count ≤ count') :
    (b.delays count).sum ≤ (b.delays count').sum := by
  induction h with
  | refl => exact Nat.le_refl _
  | step _ ih =>
    rw [sum_delays_succ]
    exact Nat.le_trans ih (Nat.le_add_right _ _)

/-- When a call is due that follows some others: at the start, or when the wait after the last of
them is over. -/
def dueAfter (b : Backoff) (start : Time) (xs : List Exchange) : Time :=
  match xs.getLast? with
  | none => start
  | some x => x.ended + b.delay xs.length

/-- The first attempt is due at the start. -/
theorem dueAfter_nil (b : Backoff) (start : Time) : b.dueAfter start [] = start := rfl

/-- The next attempt is due a wait after the end of the last call. -/
theorem dueAfter_concat (b : Backoff) (start : Time) (xs : List Exchange) (x : Exchange) :
    b.dueAfter start (xs ++ [x]) = x.ended + b.delay (xs.length + 1) := by
  rw [dueAfter, List.getLast?_concat, List.length_append]
  rfl

end Backoff

/-- However a wait ends, it ends no later than it would by itself. -/
theorem Pause.time_ofWait_le_end (cancelledAt deadline : Option Time) (now : Time)
    (wait : Duration) : (Pause.ofWait cancelledAt deadline now wait).time ≤ now + wait := by
  have hnow : now ≤ now + wait := Nat.le_add_right now wait
  have hbefore : (beforeDeadline deadline now (now + wait)).time ≤ now + wait := by
    unfold beforeDeadline
    cases deadline with
    | none => exact Nat.le_refl _
    | some d =>
      by_cases hd : d ≤ now + wait
      · simp only [hd, if_true]
        exact Nat.max_le.2 ⟨hnow, hd⟩
      · simp only [hd, if_false]
        exact Nat.le_refl _
  -- A cancellation can only end it earlier.
  unfold ofWait
  cases cancelledAt with
  | none => exact hbefore
  | some c =>
    by_cases hc : c ≤ (beforeDeadline deadline now (now + wait)).time
    · simp only [hc, if_true]
      exact Nat.max_le.2 ⟨hnow, Nat.le_trans hc hbefore⟩
    · simp only [hc, if_false]
      exact hbefore

/-- A wait that a cancellation ends is over at once, or when the cancellation comes. -/
theorem Pause.ofWait_eq_cancelled {cancelledAt deadline : Option Time} {now t : Time}
    {wait : Duration} (h : Pause.ofWait cancelledAt deadline now wait = .cancelled t) :
    ∃ c ∈ cancelledAt, t = max now c := by
  have hspec := beforeDeadline_spec deadline now wait
  unfold ofWait at h
  cases cancelledAt with
  | none =>
    -- Nothing but a cancellation ends a wait in this way.
    simp only at h
    rw [h] at hspec
    exact hspec.elim
  | some c =>
    by_cases hc : c ≤ (beforeDeadline deadline now (now + wait)).time
    · simp only [hc, if_true, Pause.cancelled.injEq] at h
      exact ⟨c, rfl, h.symm⟩
    · simp only [hc, if_false] at h
      rw [h] at hspec
      exact hspec.elim

/-! ### Calls -/

/-- When and how a call ends: with whatever comes first of its answer, the limit of an attempt, and
the deadline. It brings what the transport brings if that is the first to come, or comes together
with the first, and a fault if it is cut off. A call that is ready at once is not cut off. -/
structure Exchange.Ends (budget : Budget) (reply : Reply) (x : Exchange) : Prop where
  first : IsLeast {t | (∃ latency ∈ reply.latency, t = x.call.time + latency) ∨
    t = x.call.time + budget.requestTimeout ∨ t ∈ budget.deadline} x.ended
  answered : (∃ latency ∈ reply.latency, x.ended = x.call.time + latency) →
    x.outcome = reply.outcome
  cut : (∀ latency ∈ reply.latency, x.ended ≠ x.call.time + latency) →
    x.outcome = .error .timeout
  ready : reply.latency = some 0 → x.ended = x.call.time ∧ x.outcome = reply.outcome

/-- All calls are made when they are due, and end as they should. The first is due at the start, and
each one after it when the wait after the one before is over. -/
structure Scheduled {σ : Type} (transport : Transport σ) (budget : Budget) (start : Scene σ)
    (exchanges : List Exchange) : Prop where
  due : ∀ before x after, exchanges = before ++ x :: after →
    x.call.time = budget.backoff.dueAfter start.now before
  ends : ∀ before x after, exchanges = before ++ x :: after →
    x.Ends budget (transport.call (transport.after start.world before) x.call).1

/-- The first of two instants, of which the later one is given by what is left until then. -/
theorem add_min_sub {now d : Nat} (length : Nat) (h : now < d) :
    now + min length (d - now) = min (now + length) d := by
  omega

/-- The limit of an attempt that starts before the deadline is the first of two instants. -/
theorem Budget.isLeast_attemptLimit {budget : Budget} {now : Time}
    (hintime : ∀ d ∈ budget.deadline, now < d) :
    IsLeast {t | t = now + budget.requestTimeout ∨ t ∈ budget.deadline}
      (now + budget.attemptLimit now) := by
  -- Without a deadline there is one instant, and with one the earlier of the two counts.
  cases hdeadline : budget.deadline with
  | none =>
    have hlimit : budget.attemptLimit now = budget.requestTimeout := by
      rw [attemptLimit, hdeadline]
    rw [hlimit]
    refine ⟨.inl rfl, ?_⟩
    rintro t (rfl | hmem)
    · exact Nat.le_refl _
    · cases hmem
  | some d =>
    have hlt : now < d := hintime d hdeadline
    have hlimit : budget.attemptLimit now = min budget.requestTimeout (d - now) := by
      rw [attemptLimit, hdeadline]
    have hmin : now + budget.attemptLimit now = min (now + budget.requestTimeout) d := by
      rw [hlimit]
      exact add_min_sub budget.requestTimeout hlt
    rw [hmin]
    constructor
    · rcases Nat.le_total (now + budget.requestTimeout) d with hle | hle
      · exact .inl (Nat.min_eq_left hle)
      · exact .inr (congrArg some (Nat.min_eq_right hle).symm)
    · rintro t (rfl | hmem)
      · exact Nat.min_le_left _ _
      · cases hmem
        exact Nat.min_le_right _ _

section
variable {σ α : Type} {transport : Transport σ} {budget : Budget} {exec : Executable α}
  {p q : Progress σ} {x : Exchange}

/-- A call that starts before the deadline ends with what comes first. -/
theorem Progress.Calls.ends (h : p.Calls transport budget exec x q)
    (hintime : ∀ d ∈ budget.deadline, p.scene.now < d) :
    x.Ends budget (transport.call p.scene.world x.call).1 := by
  obtain ⟨hlimit, hleast⟩ := Budget.isLeast_attemptLimit hintime
  rw [← h.time] at hlimit hleast
  rcases exchange_cases transport budget p.scene x.call with
    ⟨latency, hlatency, hle, hx⟩ | ⟨hlate, hx⟩
  · have hmade := h.exchange.symm.trans hx
    have hended : x.ended = x.call.time + latency := by
      rw [h.time]
      exact congrArg (fun made => made.1.ended) hmade
    have houtcome : x.outcome = (transport.call p.scene.world x.call).1.outcome :=
      congrArg (fun made => made.1.outcome) hmade
    refine ⟨⟨.inl ⟨latency, hlatency, hended⟩, ?_⟩, fun _ => houtcome,
      fun hcut => absurd hended (hcut latency hlatency), fun hready => ?_⟩
    · -- The answer came within the limit, so before whatever ends a call but an answer.
      rw [hended]
      rintro t (⟨latency', hlatency', rfl⟩ | hother)
      · rw [Option.mem_unique hlatency' hlatency]
      · refine Nat.le_trans (Nat.add_le_add_left ?_ _) (hleast hother)
        rwa [h.time]
    · rw [hlatency, Option.some.injEq] at hready
      exact ⟨by rw [hended, hready, Nat.add_zero], houtcome⟩
  · have hmade := h.exchange.symm.trans hx
    have hended : x.ended = x.call.time + budget.attemptLimit x.call.time := by
      rw [h.time]
      exact congrArg (fun made => made.1.ended) hmade
    have houtcome : x.outcome = .error .timeout := congrArg (fun made => made.1.outcome) hmade
    rw [← h.time] at hlate
    have hnever (latency : Duration)
        (hlatency : latency ∈ (transport.call p.scene.world x.call).1.latency) :
        x.ended < x.call.time + latency := by
      rw [hended]
      exact Nat.add_lt_add_left (hlate latency hlatency) _
    refine ⟨⟨.inr (hended ▸ hlimit), ?_⟩, ?_, fun _ => houtcome, fun hready => ?_⟩
    · rintro t (⟨latency, hlatency, rfl⟩ | hother)
      · exact Nat.le_of_lt (hnever latency hlatency)
      · rw [hended]
        exact hleast hother
    · rintro ⟨latency, hlatency, heq⟩
      exact absurd heq (Nat.ne_of_lt (hnever latency hlatency))
    · exact absurd (hlate 0 hready) (Nat.not_lt_zero _)

/-! ### All calls of a run -/

/-- Nothing has been called at the start. -/
theorem scheduled_nil (transport : Transport σ) (budget : Budget) (start : Scene σ) :
    Scheduled transport budget start [] where
  due before x after h := by simp at h
  ends before x after h := by simp at h

/-- A call that is made when it is due, before the deadline, goes to the end of a schedule. -/
theorem Scheduled.call {start : Scene σ} (h : Scheduled transport budget start p.exchanges)
    (hdue : p.scene.now = budget.backoff.dueAfter start.now p.exchanges)
    (hworld : p.scene.world = transport.after start.world p.exchanges)
    (hintime : ∀ d ∈ budget.deadline, p.scene.now < d)
    (hc : p.Calls transport budget exec x q) :
    Scheduled transport budget start q.exchanges := by
  rw [hc.exchanges]
  refine ⟨forall_splits_concat h.due ?_, forall_splits_concat h.ends ?_⟩
  · rw [hc.time, hdue]
  · rw [← hworld]
    exact hc.ends hintime

/-- Timers fire when they should, as far as the waits of a budget go. -/
def Transport.Punctual (transport : Transport σ) (budget : Budget) : Prop :=
  ∀ k, transport.timer (budget.backoff.delay k) = budget.backoff.delay k

namespace Progress

variable {cancelledAt : σ → Option Time} {limit left : Nat} {start : Progress σ}

/-- Where a request stands before an attempt: its calls have kept the schedule, and the next one is
due. -/
structure Due (transport : Transport σ) (budget : Budget) (start : Scene σ) (p : Progress σ) :
    Prop where
  scheduled : Scheduled transport budget start p.exchanges
  now : p.scene.now = budget.backoff.dueAfter start.now p.exchanges

/-- A wait is for the time that belongs to the number of calls. -/
theorem pause_eq (htimer : transport.Punctual budget) (hcounted : q.attempts = q.exchanges.length) :
    q.pause transport budget cancelledAt = Pause.ofWait (cancelledAt q.scene.world) budget.deadline
      q.scene.now (budget.backoff.delay q.exchanges.length) := by
  rw [pause, htimer, hcounted]

/-- Every state that a request reaches keeps the schedule. -/
theorem Reached.due (htimer : transport.Punctual budget) (hnone : start.exchanges = [])
    (hfailing : start.Failing exec)
    (h : Reached transport budget cancelledAt exec limit start left p) :
    Due transport budget start.scene p := by
  induction h with
  | start =>
    refine ⟨?_, ?_⟩
    · -- At the start nothing is scheduled, and the first attempt is due at once.
      rw [hnone]
      exact scheduled_nil transport budget start.scene
    · rw [hnone, Backoff.dueAfter_nil]
  | @again left p q failure t reached isOpen attempt pause ih =>
    obtain ⟨x, call, -, -⟩ := of_attempt_failed attempt
    have hcounted := ((reached.failing hfailing).attempt attempt).1.counted
    have hintime := ((open_iff budget cancelledAt p).1 isOpen).2
    have hscheduled := ih.scheduled.call ih.now (reached.recorded hnone).world hintime call
    refine ⟨hscheduled, ?_⟩
    -- The wait is counted from the end of the call.
    rw [pause_eq htimer hcounted] at pause
    have hspec := Pause.ofWait_spec (cancelledAt q.scene.world) budget.deadline q.scene.now
      (budget.backoff.delay q.exchanges.length)
    rw [pause] at hspec
    show t = budget.backoff.dueAfter start.scene.now q.exchanges
    rw [hspec.1, call.exchanges, Backoff.dueAfter_concat, List.length_append, call.scene]
    rfl

/-- After a wait that came to its own end, nothing stops the next attempt. -/
theorem Reached.start_or_open (h : Reached transport budget cancelledAt exec limit start left p) :
    p = start ∨ p.Open budget cancelledAt := by
  cases h with
  | start => exact .inl rfl
  | @again left p q failure t reached isOpen attempt pause =>
    have hspec := Pause.ofWait_spec (cancelledAt q.scene.world) budget.deadline q.scene.now
      (transport.timer (budget.backoff.delay q.attempts))
    rw [show Pause.ofWait _ _ _ _ = _ from pause] at hspec
    exact .inr ((open_iff budget cancelledAt (q.later t)).2 ⟨hspec.2.2, hspec.2.1⟩)

end Progress

/-! ### The end of a run -/

/-- What ends the wait after a call that was made as number `calls` and ended at some time: a
cancellation, or the deadline. If the wait comes to its end there is another call, unless there is
no request for the node that it would go to. -/
inductive Run.Interrupted (budget : Budget) (cancelledAt : σ → Option Time) (exec : Executable α)
    (ended : Time) (calls : Nat) (run : Run σ α) : Prop
  | cancelled {c : Time} {last : Option AttemptFailure} (mem : c ∈ cancelledAt run.scene.world)
      (now : run.scene.now = max ended c)
      (during : run.scene.now ≤ ended + budget.backoff.delay calls)
      (result : run.result = .error (.cancelled calls last))
  | overdue {last : Option AttemptFailure} (mem : run.scene.now ∈ budget.deadline)
      (during : ended ≤ run.scene.now ∧ run.scene.now ≤ ended + budget.backoff.delay calls)
      (result : run.result = .error (.deadlineExceeded calls last))
  | unasked {node : Node} {e : Error} (request : exec.request node = .error e)
      (now : run.scene.now = ended + budget.backoff.delay calls) (result : run.result = .error e)

/-- When a run ends: at the start if it makes no call, and with its last call if that settles the
request or no other is allowed. Otherwise the wait after it is interrupted. -/
inductive Run.Concluded (budget : Budget) (cancelledAt : σ → Option Time) (exec : Executable α)
    (start : Time) (run : Run σ α) : Prop
  | uncalled (calls : run.exchanges = []) (now : run.scene.now = start)
  | atOnce {earlier : List Exchange} {x : Exchange} (calls : run.exchanges = earlier ++ [x])
      (within : earlier.length + 1 ≤ budget.maxAttempts)
      (closed : earlier.length + 1 = budget.maxAttempts ∨
        ∃ result, x.Settles exec (earlier.length + 1) result)
      (now : run.scene.now = x.ended)
  | waiting {earlier : List Exchange} {x : Exchange} {failure : AttemptFailure}
      (calls : run.exchanges = earlier ++ [x]) (left : earlier.length + 1 < budget.maxAttempts)
      (fails : x.FailsWith exec failure)
      (interrupted : run.Interrupted budget cancelledAt exec x.ended (earlier.length + 1))

namespace Progress

variable {cancelledAt : σ → Option Time} {left : Nat} {start : Scene σ} {run : Run σ α}

/-- A wait after a failed call that does not come to its end is interrupted. -/
theorem Calls.interrupted (htimer : transport.Punctual budget)
    (hcounted : q.attempts = q.exchanges.length) (hc : p.Calls transport budget exec x q)
    (hintime : ∀ d ∈ budget.deadline, p.scene.now < d) {t : Time} :
    (q.pause transport budget cancelledAt = .cancelled t →
      ((q.later t).finish (.error (.cancelled q.attempts q.last)) : Run σ α).Interrupted budget
        cancelledAt exec x.ended (p.exchanges.length + 1)) ∧
    (q.pause transport budget cancelledAt = .deadline t →
      ((q.later t).finish (.error (.deadlineExceeded q.attempts q.last)) : Run σ α).Interrupted
        budget cancelledAt exec x.ended (p.exchanges.length + 1)) := by
  have hlength : q.exchanges.length = p.exchanges.length + 1 := by
    rw [hc.exchanges, List.length_append]
    rfl
  have hnow : q.scene.now = x.ended := by rw [hc.scene]
  have hend := Pause.time_ofWait_le_end (cancelledAt q.scene.world) budget.deadline q.scene.now
    (budget.backoff.delay q.exchanges.length)
  rw [pause_eq htimer hcounted]
  constructor
  · intro hpause
    rw [hpause, hnow, hlength] at hend
    obtain ⟨c, hc, ht⟩ := Pause.ofWait_eq_cancelled hpause
    rw [hnow] at ht
    exact .cancelled hc ht hend (by rw [hcounted, hlength]; rfl)
  · intro hpause
    have hspec := Pause.ofWait_spec (cancelledAt q.scene.world) budget.deadline q.scene.now
      (budget.backoff.delay q.exchanges.length)
    rw [hpause] at hspec
    obtain ⟨⟨d, hd, -, ht⟩, -⟩ := hspec
    -- The call kept to its limit, so the deadline had not passed when the wait began.
    have hle : x.ended ≤ d := by
      rw [← hnow]
      exact Budget.le_of_attemptLimit hd (Nat.le_of_lt (hintime d hd)) hc.ended.2
    rw [hnow, Nat.max_eq_right hle] at ht
    rw [hpause, hnow, hlength] at hend
    refine .overdue ?_ ⟨?_, hend⟩ (by rw [hcounted, hlength]; rfl)
    · show t ∈ budget.deadline
      rwa [ht]
    · show x.ended ≤ t
      rwa [ht]

/-- A request that ends has kept the schedule, and ends when it should. -/
theorem Ended.concluded (htimer : transport.Punctual budget) (hdue : Due transport budget start p)
    (hworld : p.scene.world = transport.after start.world p.exchanges) (hp : p.Failing exec)
    (hleft : p.attempts + left + 1 = budget.maxAttempts)
    (hopen : p.exchanges = [] ∨ p.Open budget cancelledAt)
    (h : Ended transport budget cancelledAt exec left p run) :
    Scheduled transport budget start run.exchanges ∧
      run.Concluded budget cancelledAt exec start.now := by
  -- Only a request that has called nobody yet stands at its start.
  have hfirst (hnone : p.exchanges = []) : p.scene.now = start.now := by
    rw [hdue.now, hnone, Backoff.dueAfter_nil]
  have hcall {x : Exchange} {q : Progress σ} (isOpen : p.Open budget cancelledAt)
      (hc : p.Calls transport budget exec x q) : Scheduled transport budget start q.exchanges :=
    hdue.scheduled.call hdue.now hworld ((open_iff budget cancelledAt p).1 isOpen).2 hc
  have hcounted := hp.counted
  cases h with
  | cancelled cancelled =>
    refine ⟨hdue.scheduled, ?_⟩
    -- A check that fails after a wait would have ended that wait.
    rcases hopen with hnone | isOpen
    · exact .uncalled hnone (hfirst hnone)
    · rw [isOpen.uncancelled] at cancelled
      cases cancelled
  | overdue uncancelled overdue =>
    refine ⟨hdue.scheduled, ?_⟩
    rcases hopen with hnone | isOpen
    · exact .uncalled hnone (hfirst hnone)
    · rw [isOpen.intime] at overdue
      cases overdue
  | @settled result q isOpen attempt =>
    rcases of_attempt_settled attempt with ⟨x, call, settles⟩ | ⟨e, rfl, he, hexchanges, hscene⟩
    · refine ⟨hcall isOpen call, .atOnce call.exchanges (by omega) (.inr ⟨result, ?_⟩) ?_⟩
      · rwa [call.attempts, hcounted] at settles
      · show q.scene.now = x.ended
        rw [call.scene]
    · refine ⟨?_, ?_⟩
      · show Scheduled transport budget start q.exchanges
        rw [hexchanges]
        exact hdue.scheduled
      · -- There was no request for the node, which is found out when the attempt is due.
        rcases hp.last with ⟨hnone, -⟩ | ⟨earlier, x, failure, hx, hfails, -⟩
        · refine .uncalled (hexchanges.trans hnone) ?_
          show q.scene.now = start.now
          rw [hscene, hfirst hnone]
        · rw [hx, List.length_append, List.length_singleton] at hcounted
          refine .waiting (hexchanges.trans hx) (by omega) hfails (.unasked he ?_ rfl)
          show q.scene.now = _
          rw [hscene, hdue.now, hx, Backoff.dueAfter_concat]
  -- The last attempt that there was has failed, and there is no wait after it.
  | @spent failure q isOpen attempt left_eq =>
    obtain ⟨x, call, -, -⟩ := of_attempt_failed attempt
    refine ⟨hcall isOpen call, .atOnce call.exchanges (by omega) (.inl (by omega)) ?_⟩
    show q.scene.now = x.ended
    rw [call.scene]
  | @cancelledWaiting failure q t isOpen attempt left_ne pause =>
    obtain ⟨x, call, hfails, -⟩ := of_attempt_failed attempt
    have hintime := ((open_iff budget cancelledAt p).1 isOpen).2
    have hinterrupted := (call.interrupted htimer (hp.attempt attempt).1.counted hintime).1 pause
    have hscheduled := hcall isOpen call
    exact ⟨hscheduled, .waiting call.exchanges (by omega) hfails hinterrupted⟩
  | @overdueWaiting failure q t isOpen attempt left_ne pause =>
    obtain ⟨x, call, hfails, -⟩ := of_attempt_failed attempt
    have hintime := ((open_iff budget cancelledAt p).1 isOpen).2
    have hinterrupted := (call.interrupted htimer (hp.attempt attempt).1.counted hintime).2 pause
    have hscheduled := hcall isOpen call
    exact ⟨hscheduled, .waiting call.exchanges (by omega) hfails hinterrupted⟩

end Progress

/-! ### How long a run can take -/

/-- A call ends within the limit of an attempt. -/
theorem Exchange.Ends.le {reply : Reply} (h : x.Ends budget reply) :
    x.ended ≤ x.call.time + budget.requestTimeout :=
  h.first.2 (.inr (.inl rfl))

section
variable {start : Scene σ} {earlier : List Exchange}

/-- The calls before the last one have kept the schedule. -/
theorem Scheduled.init (h : Scheduled transport budget start (earlier ++ [x])) :
    Scheduled transport budget start earlier := by
  have hlonger (before : List Exchange) (y : Exchange) (after : List Exchange)
      (hsplit : earlier = before ++ y :: after) :
      earlier ++ [x] = before ++ y :: (after ++ [x]) := by
    rw [hsplit, List.append_assoc, List.cons_append]
  exact ⟨fun before y after hsplit => h.due before y _ (hlonger before y after hsplit),
    fun before y after hsplit => h.ends before y _ (hlonger before y after hsplit)⟩

/-- The last call ends within its limit from when it was due. -/
theorem Scheduled.last_le (h : Scheduled transport budget start (earlier ++ [x])) :
    x.ended ≤ budget.backoff.dueAfter start.now earlier + budget.requestTimeout := by
  have hends := (h.ends earlier x [] rfl).le
  rwa [h.due earlier x [] rfl] at hends

/-- A call that ends within its limit adds no more than that to what the calls before it took. -/
theorem ended_le_of_due {start ended due calls limit waits : Nat} (hended : ended ≤ due + limit)
    (hdue : due ≤ start + calls * limit + waits) :
    ended ≤ start + (calls + 1) * limit + waits := by
  rw [Nat.succ_mul]
  omega

/-- A call is due when all calls before it have taken their limit and all waits before it are over,
or earlier. -/
theorem Scheduled.dueAfter_le {exchanges : List Exchange}
    (h : Scheduled transport budget start exchanges) :
    budget.backoff.dueAfter start.now exchanges ≤ start.now +
      exchanges.length * budget.requestTimeout + (budget.backoff.delays exchanges.length).sum := by
  induction exchanges using List.reverseRecOn with
  | nil => exact Nat.le_add_right _ _
  | append_singleton earlier x ih =>
    have hended := ended_le_of_due h.last_le (ih h.init)
    rw [Backoff.dueAfter_concat, List.length_append, List.length_singleton,
      Backoff.sum_delays_succ, ← Nat.add_assoc]
    exact Nat.add_le_add_right hended _

/-- The last call ends when all calls have taken their limit and all waits before it are over, or
earlier. -/
theorem Scheduled.ended_le (h : Scheduled transport budget start (earlier ++ [x])) :
    x.ended ≤ start.now + (earlier.length + 1) * budget.requestTimeout +
      (budget.backoff.delays earlier.length).sum :=
  ended_le_of_due h.last_le h.init.dueAfter_le

/-- An interruption comes before the wait would have been over. -/
theorem Run.Interrupted.now_le {run : Run σ α} {cancelledAt : σ → Option Time} {ended : Time}
    {calls : Nat} (h : run.Interrupted budget cancelledAt exec ended calls) :
    run.scene.now ≤ ended + budget.backoff.delay calls := by
  cases h with
  | cancelled _ _ during _ => exact during
  | overdue _ during _ => exact during.2
  | unasked _ now _ => exact Nat.le_of_eq now

/-- A run ends within as many limits of an attempt as it has attempts and the waits between them,
whatever the transport does. -/
theorem Run.Concluded.now_le {run : Run σ α} {cancelledAt : σ → Option Time}
    (hscheduled : Scheduled transport budget start run.exchanges)
    (h : run.Concluded budget cancelledAt exec start.now) :
    run.scene.now ≤ start.now + budget.maxAttempts * budget.requestTimeout +
      (budget.backoff.delays (budget.maxAttempts - 1)).sum := by
  cases h with
  | uncalled _ now =>
    rw [now, Nat.add_assoc]
    exact Nat.le_add_right _ _
  | @atOnce earlier x calls within closed now =>
    rw [calls] at hscheduled
    have hcalls := Nat.mul_le_mul_right budget.requestTimeout within
    have hwaits := budget.backoff.sum_delays_mono (Nat.le_sub_one_of_lt within)
    calc run.scene.now = x.ended := now
      _ ≤ start.now + (earlier.length + 1) * budget.requestTimeout +
          (budget.backoff.delays earlier.length).sum := hscheduled.ended_le
      _ ≤ _ := Nat.add_le_add (Nat.add_le_add_left hcalls start.now) hwaits
  | @waiting earlier x failure calls left fails interrupted =>
    rw [calls] at hscheduled
    have hcalls := Nat.mul_le_mul_right budget.requestTimeout (Nat.le_of_lt left)
    -- The wait that was interrupted is one of those between two attempts.
    have hwaits := budget.backoff.sum_delays_mono (Nat.le_sub_one_of_lt left)
    rw [Backoff.sum_delays_succ] at hwaits
    calc run.scene.now ≤ x.ended + budget.backoff.delay (earlier.length + 1) := interrupted.now_le
      _ ≤ start.now + (earlier.length + 1) * budget.requestTimeout +
            (budget.backoff.delays earlier.length).sum +
          budget.backoff.delay (earlier.length + 1) :=
        Nat.add_le_add_right hscheduled.ended_le _
      _ = start.now + (earlier.length + 1) * budget.requestTimeout +
          ((budget.backoff.delays earlier.length).sum +
            budget.backoff.delay (earlier.length + 1)) := Nat.add_assoc _ _ _
      _ ≤ _ := Nat.add_le_add (Nat.add_le_add_left hcalls start.now) hwaits

end

end

/-! ### The law -/

/-- The law of when things happen in a run, for every executable, every budget and every transport,
with timers that fire when they should. The first call, if there is one, is made at the start, and
each later one when the wait after the call before it is over, if that is before the deadline. A
call ends with its answer, the limit of an attempt or the deadline, whichever comes first, and is a
fault if it was cut off. The run ends with the last call, or it is interrupted in the wait after it.
So it ends within as many limits of an attempt as there are attempts, and the waits between them. -/
theorem attempts_scheduled {σ α : Type} (transport : Transport σ) (config : ClientConfig)
    (network : Network) (exec : Executable α) (options : ExecuteOptions σ) (scene : Scene σ)
    {budget : Budget} {selection : Selection} {network' : Network}
    (hbudget : Budget.resolve config options scene.now = .ok budget)
    (hcand : candidates network exec = .ok (selection, network'))
    (htimer : transport.Punctual budget) :
    let run := execute transport config network exec options scene
    (∀ x ∈ run.exchanges.head?, x.call.time = scene.now) ∧
      (∀ before x y after, run.exchanges = before ++ x :: y :: after →
        y.call.time = x.ended + budget.backoff.delay (before.length + 1)) ∧
      (∀ before x after, run.exchanges = before ++ x :: after →
        x.Ends budget (transport.call (transport.after scene.world before) x.call).1) ∧
      (∀ x ∈ run.exchanges, ∀ d ∈ budget.deadline, x.call.time < d) ∧
      run.Concluded budget options.cancelledAt exec scene.now ∧
      run.scene.now ≤ scene.now + budget.maxAttempts * budget.requestTimeout +
        (budget.backoff.delays (budget.maxAttempts - 1)).sum := by
  intro run
  obtain ⟨limit, left, p, hlimit, hreached, hended⟩ :=
    execute_ended transport options hbudget hcand
  have hfresh := Progress.failing_fresh exec scene network' selection
  have hattempts := hreached.attempts_add_left
  have hopen : p.exchanges = [] ∨ p.Open budget options.cancelledAt := by
    rcases hreached.start_or_open with rfl | isOpen
    · exact .inl rfl
    · exact .inr isOpen
  have hleft : p.attempts + left + 1 = budget.maxAttempts := by
    rw [hattempts, hlimit]
    exact congrArg (· + 1) (Nat.zero_add limit)
  obtain ⟨hscheduled, hconcluded⟩ := hended.concluded htimer (hreached.due htimer rfl hfresh)
    (hreached.recorded rfl).world (hreached.failing hfresh) hleft hopen
  obtain ⟨q, honTime, hexchanges, -⟩ := hended.onTime (hreached.onTime rfl) (hreached.recorded rfl)
  refine ⟨fun x hx => ?_, fun before x y after hsplit => ?_, hscheduled.ends, ?_, hconcluded,
    hconcluded.now_le hscheduled⟩
  · obtain ⟨after, hsplit⟩ := List.head?_eq_some_iff.1 hx
    exact hscheduled.due [] x after hsplit
  · have hdue := hscheduled.due (before ++ [x]) y after (by rw [hsplit, List.append_assoc]; rfl)
    rwa [Backoff.dueAfter_concat] at hdue
  · rw [show run.exchanges = q.exchanges from hexchanges]
    exact honTime.beforeDeadline

/-- A ledger of which the first node of the test network never answers. -/
def silentLedger : Simulation.ScriptedLedger where
  balance := 7
  scripts := [(⟨0, 0, 3⟩, [⟨0, .hang⟩]), (⟨0, 0, 4⟩, [⟨1000000, .fault .reset⟩])]

/-- The budget of a request with the settings that a client has by default. -/
def defaultBudget : Budget where
  maxAttempts := 10
  backoff := .ofBounds (milliseconds 250) (milliseconds 8000)
  requestTimeout := milliseconds 10000
  deadline := none

/-- The first call is cut off after ten seconds and the second fails at once. Both waits are over
when the third is made, which brings the answer. -/
theorem attempts_scheduled_silent :
    let run := execute Simulation.ScriptedLedger.transport .default .testnet
      (Balance.query ⟨0, 0, 2⟩ none) {} ⟨0, silentLedger⟩
    Simulation.ScriptedLedger.transport.Punctual defaultBudget ∧
      run.exchanges.map (fun x => (x.call.time, x.ended)) =
        [(0, milliseconds 10000), (milliseconds 10250, milliseconds 10251),
          (milliseconds 10751, milliseconds 10751)] ∧
      run.Concluded defaultBudget (fun _ => none) (Balance.query ⟨0, 0, 2⟩ none) 0 ∧
      run.scene.now ≤ 0 + 10 * milliseconds 10000 + (defaultBudget.backoff.delays 9).sum := by
  have htimer : Simulation.ScriptedLedger.transport.Punctual defaultBudget := fun k =>
    Nat.min_eq_left (Nat.le_trans (defaultBudget.backoff.delay_le_max k) (by decide))
  have hscheduled := attempts_scheduled Simulation.ScriptedLedger.transport .default .testnet
    (Balance.query ⟨0, 0, 2⟩ none) {} ⟨0, silentLedger⟩
    (show Budget.resolve .default _ 0 = .ok defaultBudget from rfl) rfl htimer
  exact ⟨htimer, rfl, hscheduled.2.2.2.2⟩

end LedgerClient
