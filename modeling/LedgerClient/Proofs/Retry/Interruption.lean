import Mathlib.Logic.Relation
import LedgerClient.Proofs.Retry.Trace
import LedgerClient.Proofs.Retry.Waiting
import LedgerClient.Retry.Cancellation

/-!
# `LedgerClient.Proofs.Retry.Interruption`: deadlines and cancellations

A deadline and a cancellation can come before the first attempt, during
a call, or anywhere in a wait. `Timely` says what they may do: they keep
calls from being made and end waits, they never touch a call that is
under way, except that the deadline cuts it off, and of the two the
cancellation is the one that is reported.

The invariant is `Progress.OnTime`: no call was made too late, and the
clock has not passed the later of the start and the deadline. A call
keeps it because its limit is cut to the time that is left
(`Budget.le_of_attemptLimit`), and a wait because it ends no later than
the deadline (`Progress.pause_time_le`).

That an answer decides although a cancellation has come in the meantime
is said by comparing runs: with any other cancellation that had not come
when the last call was made, the run is the same
(`Progress.Reached.transfer`).
-/

set_option autoImplicit false

namespace LedgerClient

variable {σ α : Type}

/-! ### Handles -/

/-- What can happen to a handle. -/
inductive Cancellation.Step : Cancellation → Cancellation → Prop
  | cancel (c : Cancellation) (now : Time) : Step c (c.cancel now)
  | drop (c : Cancellation) : Step c c.drop
  | subscribe (c : Cancellation) : Step c c.subscribe

/-- Nothing that can happen to a handle takes a cancellation back. -/
theorem Cancellation.uncancelled_of_steps {c c' : Cancellation}
    (hsteps : Relation.ReflTransGen Cancellation.Step c c') (h : c'.cancelledAt = none) :
    c.cancelledAt = none := by
  induction hsteps with
  | refl => exact h
  | @tail b d _ step ih =>
    refine ih ?_
    -- A cancellation that has come is kept, and the other two events do not touch it.
    cases step with
    | cancel now =>
      rw [cancel] at h
      split at h
      · cases h
      · exact h
    | drop => exact h
    | subscribe => exact h

/-- A handle that was dropped without being cancelled. -/
def Cancellation.Abandoned (c : Cancellation) : Prop :=
  c.held = false ∧ c.cancelledAt = none

/-- Nothing that can happen to an abandoned handle cancels it. -/
theorem Cancellation.Abandoned.steps {c c' : Cancellation} (h : c.Abandoned)
    (hsteps : Relation.ReflTransGen Cancellation.Step c c') : c'.Abandoned := by
  induction hsteps with
  | refl => exact h
  | tail _ step ih =>
    obtain ⟨hheld, hnone⟩ := ih
    cases step with
    | cancel now => exact ⟨by simp [cancel, hheld], by simp [cancel, hheld, hnone]⟩
    | drop => exact ⟨rfl, hnone⟩
    | subscribe => exact ⟨hheld, hnone⟩

/-- What calls do to a handle of which the outside keeps track is what can happen to a handle. -/
theorem Transport.steps_after {transport : Transport σ} {handle : σ → Cancellation}
    (hstep : ∀ world call, Relation.ReflTransGen Cancellation.Step (handle world)
      (handle (transport.call world call).2)) (world : σ) (exchanges : List Exchange) :
    Relation.ReflTransGen Cancellation.Step (handle world)
      (handle (transport.after world exchanges)) := by
  induction exchanges generalizing world with
  | nil => exact .refl
  | cons x xs ih => exact (hstep world x.call).trans (ih _)

/-- A handle that is abandoned at some point of a run is not cancelled at any. -/
theorem Transport.uncancelled_of_abandoned {transport : Transport σ} {handle : σ → Cancellation}
    (hstep : ∀ world call, Relation.ReflTransGen Cancellation.Step (handle world)
      (handle (transport.call world call).2)) {world : σ} {exchanges xs ys : List Exchange}
    (hxs : exchanges = xs ++ ys) (h : (handle (transport.after world xs)).Abandoned) :
    ∀ us vs, exchanges = us ++ vs → (handle (transport.after world us)).cancelledAt = none := by
  -- From that point on to the end of the run, and from there back to any other.
  have hend : (handle (transport.after world exchanges)).Abandoned := by
    rw [hxs, Transport.after_append]
    exact h.steps (Transport.steps_after hstep _ ys)
  intro us vs hus
  refine Cancellation.uncancelled_of_steps (Transport.steps_after hstep _ vs) ?_
  rw [← Transport.after_append, ← hus]
  exact hend.2

/-! ### Calls and the clock -/

namespace Progress

/-- No call was made too late, neither by the deadline nor by the cancellation as it was known
when the call was made, and the clock has not passed the later of the start and the deadline. -/
structure OnTime (transport : Transport σ) (budget : Budget) (cancelledAt : σ → Option Time)
    (start p : Progress σ) : Prop where
  beforeDeadline : ∀ x ∈ p.exchanges, ∀ d ∈ budget.deadline, x.call.time < d
  beforeCancellation : ∀ xs x ys, p.exchanges = xs ++ x :: ys →
    ∀ c ∈ cancelledAt (transport.after start.scene.world xs), x.call.time < c
  clock : ∀ d ∈ budget.deadline, p.scene.now ≤ max start.scene.now d

/-- At the start there is no call, and no time has passed. -/
theorem onTime_start (transport : Transport σ) (budget : Budget) (cancelledAt : σ → Option Time)
    {start : Progress σ} (h : start.exchanges = []) :
    OnTime transport budget cancelledAt start start where
  beforeDeadline := by simp [h]
  beforeCancellation := by simp [h]
  clock d _ := Nat.le_max_left start.scene.now d

section
variable {transport : Transport σ} {budget : Budget} {cancelledAt : σ → Option Time}
  {exec : Executable α} {limit left : Nat} {start p q : Progress σ} {x : Exchange}

/-- A call from an open state is on time, and it ends by the deadline. -/
theorem OnTime.call (h : OnTime transport budget cancelledAt start p)
    (hrecorded : Recorded transport budget exec start p) (hopen : p.Open budget cancelledAt)
    (hcall : p.Calls transport budget exec x q) :
    OnTime transport budget cancelledAt start q := by
  obtain ⟨huncancelled, hintime⟩ := (open_iff budget cancelledAt p).1 hopen
  refine ⟨fun y hy d hd => ?_, ?_, fun d hd => ?_⟩
  · rw [hcall.exchanges] at hy
    rcases List.mem_append.1 hy with hy | hy
    · exact h.beforeDeadline y hy d hd
    · -- The new call is made now, and an open state is before the deadline.
      cases List.mem_singleton.1 hy
      rw [hcall.time]
      exact hintime d hd
  · rw [hcall.exchanges]
    -- What the calls before it have left is the state in which it is made.
    refine forall_splits_concat h.beforeCancellation ?_
    rw [← hrecorded.world, hcall.time]
    exact huncancelled
  · -- The limit of an attempt is never past the deadline.
    have hended := Budget.le_of_attemptLimit hd (Nat.le_of_lt (hintime d hd)) hcall.ended.2
    exact Nat.le_trans hended (Nat.le_max_right start.scene.now d)

/-- A wait changes no call, and it ends by the deadline. -/
theorem OnTime.wait (h : OnTime transport budget cancelledAt start q) :
    OnTime transport budget cancelledAt start
      (q.later (q.pause transport budget cancelledAt).time) where
  beforeDeadline := h.beforeDeadline
  beforeCancellation := h.beforeCancellation
  clock d hd := by
    have htime : (q.pause transport budget cancelledAt).time ≤ max q.scene.now d :=
      q.pause_time_le d hd
    exact Nat.le_trans htime
      (Nat.max_le.2 ⟨h.clock d hd, Nat.le_max_right start.scene.now d⟩)

/-- Every state that a request reaches is on time. -/
theorem Reached.onTime (hstart : start.exchanges = [])
    (h : Reached transport budget cancelledAt exec limit start left p) :
    OnTime transport budget cancelledAt start p := by
  induction h with
  | start => exact onTime_start transport budget cancelledAt hstart
  | @again left p q failure t reached isOpen attempt pause ih =>
    obtain ⟨x, call, -, -⟩ := of_attempt_failed attempt
    have hwait := (ih.call (reached.recorded hstart) isOpen call).wait
    rwa [pause] at hwait

/-- However a request ends, it ends on time. -/
theorem Ended.onTime {run : Run σ α} (hp : OnTime transport budget cancelledAt start p)
    (hrecorded : Recorded transport budget exec start p)
    (h : Ended transport budget cancelledAt exec left p run) :
    ∃ q, OnTime transport budget cancelledAt start q ∧ run.exchanges = q.exchanges ∧
      run.scene = q.scene := by
  rcases h.final with ⟨hexchanges, hscene⟩ | ⟨x, q, isOpen, call, hexchanges, hscene⟩
  · exact ⟨p, hp, hexchanges, hscene⟩
  · have hq : OnTime transport budget cancelledAt start q := hp.call hrecorded isOpen call
    rcases hscene with hscene | hscene
    · exact ⟨q, hq, hexchanges, hscene⟩
    · exact ⟨_, hq.wait, hexchanges, hscene⟩

end

/-! ### How a request stops -/

/-- A request that was not settled by a call: its executable had no request for a node, or no
attempt was left, or it was cancelled, or its deadline passed. The deadline is only reported of a
request that is not cancelled as well. -/
inductive Stopped (budget : Budget) (cancelledAt : σ → Option Time) (exec : Executable α)
    (calls : Nat) (scene : Scene σ) : Except Error α → Prop
  | unasked {node : Node} {e : Error} (request : exec.request node = .error e)
      (uncancelled : ¬ scene.Cancelled cancelledAt) (intime : ¬ scene.Overdue budget) :
      Stopped budget cancelledAt exec calls scene (.error e)
  | spent {last : Option AttemptFailure} (all : calls = budget.maxAttempts) :
      Stopped budget cancelledAt exec calls scene (.error (.maxAttemptsExceeded calls last))
  | cancelled {last : Option AttemptFailure} (cancelled : scene.Cancelled cancelledAt) :
      Stopped budget cancelledAt exec calls scene (.error (.cancelled calls last))
  | overdue {last : Option AttemptFailure} (overdue : scene.Overdue budget)
      (uncancelled : ¬ scene.Cancelled cancelledAt) :
      Stopped budget cancelledAt exec calls scene (.error (.deadlineExceeded calls last))

section
variable {transport : Transport σ} {budget : Budget} {cancelledAt : σ → Option Time}
  {exec : Executable α} {left : Nat} {p q : Progress σ}

/-- A request that ends was settled by its last call, or none of its calls settled it and it
stopped. -/
theorem Ended.settled_or_stopped {run : Run σ α} (hp : p.Failing exec)
    (hleft : p.attempts + left + 1 = budget.maxAttempts)
    (h : Ended transport budget cancelledAt exec left p run) :
    (∃ x q result, p.Open budget cancelledAt ∧
        p.attempt transport budget exec = (.settled result, q) ∧
        p.Calls transport budget exec x q ∧
        x.Settles exec (p.exchanges.length + 1) result ∧ run = q.finish result) ∨
      ((∀ x ∈ run.exchanges, ∃ failure, x.FailsWith exec failure) ∧
        Stopped budget cancelledAt exec run.exchanges.length run.scene run.result) := by
  -- A request that stops names the number of attempts, which is the number of its calls.
  have hstopped (q : Progress σ) (hq : q.Failing exec) {result : Except Error α}
      (hresult : Stopped budget cancelledAt exec q.attempts q.scene result) :
      (∀ x ∈ (q.finish result).exchanges, ∃ failure, x.FailsWith exec failure) ∧
        Stopped budget cancelledAt exec (q.finish result).exchanges.length q.scene result :=
    ⟨hq.failed, by rwa [finish, ← hq.counted]⟩
  cases h with
  -- The checks before an attempt say themselves why the request stops.
  | cancelled cancelled =>
    exact .inr (hstopped p hp (.cancelled ((cancelled_iff cancelledAt p).1 cancelled)))
  | overdue uncancelled overdue =>
    refine .inr (hstopped p hp (.overdue ((deadlinePassed_iff budget p).1 overdue) ?_))
    rw [← cancelled_iff, uncancelled]
    exact Bool.false_ne_true
  | @settled result q isOpen attempt =>
    -- By a call, or without one because there was no request for the node.
    rcases of_attempt_settled attempt with ⟨x, call, settles⟩ | ⟨e, rfl, he, hexchanges, hscene⟩
    · rw [call.attempts, hp.counted] at settles
      exact .inl ⟨x, q, result, isOpen, attempt, call, settles, rfl⟩
    · obtain ⟨huncancelled, hintime⟩ := isOpen.not_interrupted
      rw [← hscene] at huncancelled hintime
      refine .inr ⟨?_, .unasked he huncancelled hintime⟩
      simpa only [finish, hexchanges] using hp.failed
  -- All other endings come after an attempt that has failed, and was counted.
  | spent _ attempt left_eq =>
    obtain ⟨hq, hcount⟩ := hp.attempt attempt
    refine .inr (hstopped _ hq (.spent ?_))
    rw [hcount, ← hleft, left_eq]
  | cancelledWaiting _ attempt _ pause =>
    obtain ⟨hq, -⟩ := hp.attempt attempt
    exact .inr (hstopped _ (hq.later _) (.cancelled (cancelled_of_pause pause)))
  | overdueWaiting _ attempt _ pause =>
    obtain ⟨hq, -⟩ := hp.attempt attempt
    obtain ⟨hoverdue, huncancelled⟩ := overdue_of_pause pause
    exact .inr (hstopped _ (hq.later _) (.overdue hoverdue huncancelled))

/-- If the last call of a request settles it, the request was open before that call, and ended
with it. -/
theorem Ended.of_last_settles {run : Run σ α} (hp : p.Failing exec)
    (hleft : p.attempts + left + 1 = budget.maxAttempts)
    (h : Ended transport budget cancelledAt exec left p run) {xs : List Exchange} {x : Exchange}
    {result : Except Error α} (hx : run.exchanges = xs ++ [x])
    (hsettles : x.Settles exec (xs.length + 1) result) :
    ∃ q, p.Open budget cancelledAt ∧ p.attempt transport budget exec = (.settled result, q) ∧
      p.Calls transport budget exec x q ∧ xs = p.exchanges ∧ run = q.finish result := by
  rcases h.settled_or_stopped hp hleft with
    ⟨y, q, result', isOpen, attempt, call, settles, rfl⟩ | ⟨hfailed, -⟩
  · have he : p.exchanges ++ [y] = xs ++ [x] := call.exchanges ▸ hx
    obtain ⟨rfl, hyx⟩ := List.append_inj' he rfl
    cases hyx
    cases settles.unique hsettles
    exact ⟨q, isOpen, attempt, call, rfl, rfl⟩
  · obtain ⟨failure, hfails⟩ := hfailed x (by simp [hx])
    exact absurd hfails (hsettles.not_failsWith failure)

end

/-! ### The same request with another cancellation -/

section
variable {transport : Transport σ} {budget : Budget} {cancelledAt cancelledAt' : σ → Option Time}
  {exec : Executable α} {limit left : Nat} {start p q : Progress σ}

/-- A request reaches the same state with any other cancellation that had not come at any of the
calls before it, nor comes before the next one. -/
theorem Reached.transfer (hstart : start.exchanges = [])
    (h : Reached transport budget cancelledAt exec limit start left p)
    (hcalls : ∀ xs x ys, p.exchanges = xs ++ x :: ys →
      ∀ c ∈ cancelledAt' (transport.after start.scene.world xs), x.call.time < c)
    (hnext : ∀ c ∈ cancelledAt' p.scene.world, p.scene.now < c) :
    Reached transport budget cancelledAt' exec limit start left p := by
  -- The other cancellation is looked at when a wait ends, and not before, so what is known of it at
  -- the calls is enough: each wait is followed by one.
  induction h with
  | start => exact .start
  | @again left p q failure t reached isOpen attempt pause ih =>
    obtain ⟨x, call, -, -⟩ := of_attempt_failed attempt
    obtain ⟨-, hintime⟩ := (open_iff budget cancelledAt p).1 isOpen
    have hp : ∀ c ∈ cancelledAt' p.scene.world, p.scene.now < c := by
      rw [(reached.recorded hstart).world, ← call.time]
      exact hcalls p.exchanges x [] call.exchanges
    -- The calls before this one are the beginning of all calls.
    have hbefore : ∀ xs y ys, p.exchanges = xs ++ y :: ys →
        ∀ c ∈ cancelledAt' (transport.after start.scene.world xs), y.call.time < c := by
      intro xs y ys he
      refine hcalls xs y (ys ++ [x]) ?_
      show q.exchanges = _
      rw [call.exchanges, he, List.append_assoc, List.cons_append]
    exact .again (ih hbefore hp) ((open_iff budget cancelledAt' p).2 ⟨hp, hintime⟩) attempt
      (pause_resume_of_late pause hnext)

/-- A request that ends in some way has run to that end. -/
theorem Ended.eq_advance {run : Run σ α}
    (h : Ended transport budget cancelledAt exec left p run) :
    run = advance transport budget cancelledAt exec (left + 1) p := by
  rw [advance]
  cases h with
  | cancelled cancelled => rw [if_pos cancelled]
  | overdue uncancelled overdue => simp [uncancelled, overdue]
  | settled isOpen attempt => simp [isOpen.uncancelled, isOpen.intime, attempt]
  | spent isOpen attempt left_eq => simp [isOpen.uncancelled, isOpen.intime, attempt, left_eq]
  | cancelledWaiting isOpen attempt left_ne pause =>
    rw [Progress.pause] at pause
    simp [isOpen.uncancelled, isOpen.intime, attempt, left_ne, pause]
  | overdueWaiting isOpen attempt left_ne pause =>
    rw [Progress.pause] at pause
    simp [isOpen.uncancelled, isOpen.intime, attempt, left_ne, pause]

/-- A request ends in the same way with another cancellation that agrees about the states of the
outside before and after its last attempt. -/
theorem Ended.congr {run : Run σ α} (h : Ended transport budget cancelledAt exec left p run)
    (hp : cancelledAt p.scene.world = cancelledAt' p.scene.world)
    (hrun : cancelledAt run.scene.world = cancelledAt' run.scene.world) :
    Ended transport budget cancelledAt' exec left p run := by
  -- The check before the attempt looks at the state in which the attempt is made.
  have hcancelled : p.cancelled cancelledAt = p.cancelled cancelledAt' := by
    rw [Progress.cancelled, Progress.cancelled, hp]
  have hopen : p.Open budget cancelledAt → p.Open budget cancelledAt' := fun h =>
    ⟨hcancelled ▸ h.uncancelled, h.intime⟩
  cases h with
  | cancelled cancelled => exact .cancelled (hcancelled ▸ cancelled)
  | overdue uncancelled overdue => exact .overdue (hcancelled ▸ uncancelled) overdue
  | settled isOpen attempt => exact .settled (hopen isOpen) attempt
  | spent isOpen attempt left_eq => exact .spent (hopen isOpen) attempt left_eq
  | @cancelledWaiting failure q t isOpen attempt left_ne pause =>
    refine .cancelledWaiting (hopen isOpen) attempt left_ne ?_
    rw [Progress.pause] at pause ⊢
    rwa [← show cancelledAt q.scene.world = cancelledAt' q.scene.world from hrun]
  | @overdueWaiting failure q t isOpen attempt left_ne pause =>
    refine .overdueWaiting (hopen isOpen) attempt left_ne ?_
    rw [Progress.pause] at pause ⊢
    rwa [← show cancelledAt q.scene.world = cancelledAt' q.scene.world from hrun]

/-- The calls of a run are those before any of its attempts, and those that follow. -/
theorem Ended.exchanges_prefix {run : Run σ α}
    (h : Ended transport budget cancelledAt exec left p run) :
    ∃ zs, run.exchanges = p.exchanges ++ zs := by
  rcases h.final with ⟨hexchanges, -⟩ | ⟨x, q, -, call, hexchanges, -⟩
  · exact ⟨[], hexchanges.trans (List.append_nil _).symm⟩
  · exact ⟨[x], hexchanges.trans call.exchanges⟩

end

end Progress

/-! ### The law -/

/-- The errors that an executable can give by itself, when it is asked for a request or for what
an answer means. -/
inductive Executable.Gives (exec : Executable α) (e : Error) : Prop
  | request (node : Node) (given : exec.request node = .error e)
  | result (node : Node) (response : Wire.Response) (given : exec.result node response = .error e)

/-- The requests that the library makes leave it to the engine to report a deadline or a
cancellation. -/
theorem Executable.Offered.not_gives {exec : Executable α} (h : exec.Offered) (attempts : Nat)
    (last : Option AttemptFailure) :
    ¬ exec.Gives (.deadlineExceeded attempts last) ∧ ¬ exec.Gives (.cancelled attempts last) := by
  suffices hgiven : ∀ e, exec.Gives e →
      (∃ fault, e = .invalidArgument fault) ∨ ∃ fault, e = .codec fault by
    constructor <;> intro hgives <;> obtain ⟨_, he⟩ | ⟨_, he⟩ := hgiven _ hgives <;> cases he
  -- Only a transaction without a body for the node gives an error of its own.
  rintro e (⟨node, given⟩ | ⟨node, response, given⟩)
  · cases h with
    | submission f =>
      cases hb : f.bodyAt? node.accountId with
      | some b => simp [Frozen.submission, Frozen.signed, hb, Except.map] at given
      | none =>
        simp only [Frozen.submission, Frozen.signed, hb, Except.map, Except.error.injEq] at given
        exact .inl ⟨_, given.symm⟩
    | receipt => cases given
    | balance => cases given
  · cases h with
    | submission f =>
      cases hb : f.bodyAt? node.accountId with
      | some b => simp [Frozen.submission, Frozen.hash, Frozen.signed, hb, Except.map] at given
      | none =>
        simp only [Frozen.submission, Frozen.hash, Frozen.signed, hb, Except.map,
          Except.error.injEq] at given
        exact .inl ⟨_, given.symm⟩
    -- A question gives an error when the answer is of the wrong kind.
    | receipt =>
      simp only [Receipt.query] at given
      split at given
      · cases given
      · cases given
        exact .inr ⟨_, rfl⟩
    | balance =>
      simp only [Balance.query] at given
      split at given
      · cases given
      · cases given
        exact .inr ⟨_, rfl⟩

/-- What a deadline and a cancellation do to a request that starts in the scene `start`. The run
is `request cancelledAt`, and `request` is what the run would be with other cancellations. -/
structure Timely (transport : Transport σ) (budget : Budget) (exec : Executable α)
    (start : Scene σ) (request : (σ → Option Time) → Run σ α) (cancelledAt : σ → Option Time)
    (run : Run σ α) : Prop where
  /-- No call is made once the deadline has passed. -/
  beforeDeadline : ∀ x ∈ run.exchanges, ∀ d ∈ budget.deadline, x.call.time < d
  /-- No call is made once the request is cancelled. -/
  beforeCancellation : ∀ xs x ys, run.exchanges = xs ++ x :: ys →
    ∀ c ∈ cancelledAt (transport.after start.world xs), x.call.time < c
  /-- The run is over by the deadline, or at once if that had passed at the start. -/
  returned : ∀ d ∈ budget.deadline, run.scene.now ≤ max start.now d
  /-- The deadline is only reported when it has passed and there is no cancellation. -/
  deadlineExceeded : ∀ attempts last, run.result = .error (.deadlineExceeded attempts last) →
    (run.scene.Overdue budget ∧ ¬ run.scene.Cancelled cancelledAt) ∨
      exec.Gives (.deadlineExceeded attempts last)
  /-- A cancellation is only reported when there is one. -/
  cancelled : ∀ attempts last, run.result = .error (.cancelled attempts last) →
    run.scene.Cancelled cancelledAt ∨ exec.Gives (.cancelled attempts last)
  /-- A run with attempts left none of whose calls settled it reports the cancellation whenever
  there is one, and otherwise the deadline when it has passed. -/
  interrupted : (∀ x ∈ run.exchanges, ∃ failure, x.FailsWith exec failure) →
    run.exchanges.length < budget.maxAttempts →
    (run.scene.Cancelled cancelledAt →
      ∃ last, run.result = .error (.cancelled run.exchanges.length last)) ∧
    (run.scene.Overdue budget → ¬ run.scene.Cancelled cancelledAt →
      ∃ last, run.result = .error (.deadlineExceeded run.exchanges.length last))
  /-- A last call that settles the request decides its result, and no cancellation that comes
  after that call was made changes anything. -/
  inFlight : ∀ xs x result, run.exchanges = xs ++ [x] → x.Settles exec (xs.length + 1) result →
    run.result = result ∧
      ∀ cancelledAt' : σ → Option Time,
        (∀ ys y zs, run.exchanges = ys ++ y :: zs →
          ∀ c ∈ cancelledAt' (transport.after start.world ys), y.call.time < c) →
        request cancelledAt' = run
  /-- A handle that is dropped before or during the run without being cancelled is as good as
  none. -/
  abandoned : ∀ handle : σ → Cancellation,
    (∀ world, cancelledAt world = (handle world).cancelledAt) →
    (∀ world call, Relation.ReflTransGen Cancellation.Step (handle world)
      (handle (transport.call world call).2)) →
    (∃ xs ys, run.exchanges = xs ++ ys ∧ (handle (transport.after start.world xs)).Abandoned) →
    request (fun _ => none) = run

/-- A call only settles a request with a deadline or a cancellation if its executable gives it. -/
theorem Exchange.Settles.gives {exec : Executable α} {attempts n : Nat} {x : Exchange}
    {last : Option AttemptFailure} {e : Error} {result : Except Error α}
    (h : x.Settles exec attempts result) (hresult : result = .error e)
    (he : e = .deadlineExceeded n last ∨ e = .cancelled n last) : exec.Gives e := by
  cases h with
  | finished => exact .result _ _ hresult
  | refused => rcases he with rfl | rfl <;> cases hresult
  | expired => rcases he with rfl | rfl <;> cases hresult
  | undecodable => rcases he with rfl | rfl <;> cases hresult

section
variable {transport : Transport σ} {budget : Budget} {cancelledAt : σ → Option Time}
  {exec : Executable α} {limit left calls : Nat} {start p : Progress σ} {run : Run σ α}
  {scene : Scene σ} {result : Except Error α}

/-- A request that stops reports the deadline only if it has passed, and a cancellation only if
there is one, and of the two the cancellation. -/
theorem Progress.Stopped.reported (h : Stopped budget cancelledAt exec calls scene result) :
    (∀ attempts last, result = .error (.deadlineExceeded attempts last) →
      (scene.Overdue budget ∧ ¬ scene.Cancelled cancelledAt) ∨
        exec.Gives (.deadlineExceeded attempts last)) ∧
    ∀ attempts last, result = .error (.cancelled attempts last) →
      scene.Cancelled cancelledAt ∨ exec.Gives (.cancelled attempts last) := by
  cases h with
  | unasked request =>
    refine ⟨fun _ _ he => .inr ?_, fun _ _ he => .inr ?_⟩ <;> cases he <;> exact .request _ request
  | spent => exact ⟨nofun, nofun⟩
  | cancelled cancelled => exact ⟨nofun, fun _ _ _ => .inl cancelled⟩
  | overdue overdue uncancelled => exact ⟨fun _ _ _ => .inl ⟨overdue, uncancelled⟩, nofun⟩

/-- A request that stops with attempts left was interrupted if there was anything to interrupt
it. -/
theorem Progress.Stopped.interrupted (h : Stopped budget cancelledAt exec calls scene result)
    (hfewer : calls < budget.maxAttempts) :
    (scene.Cancelled cancelledAt → ∃ last, result = .error (.cancelled calls last)) ∧
      (scene.Overdue budget → ¬ scene.Cancelled cancelledAt →
        ∃ last, result = .error (.deadlineExceeded calls last)) := by
  cases h with
  | unasked _ uncancelled intime =>
    exact ⟨fun h => absurd h uncancelled, fun h _ => absurd h intime⟩
  | spent all => exact absurd all (Nat.ne_of_lt hfewer)
  | cancelled cancelled => exact ⟨fun _ => ⟨_, rfl⟩, fun _ h => absurd cancelled h⟩
  | overdue _ uncancelled => exact ⟨fun h => absurd h uncancelled, fun _ _ => ⟨_, rfl⟩⟩

/-- No cancellation that comes after the last call of a request was made changes anything, if that
call settles the request. -/
theorem Progress.Ended.inFlight (hstart : start.exchanges = []) (hfailing : start.Failing exec)
    (hleft : p.attempts + left + 1 = budget.maxAttempts)
    (hp : Progress.Reached transport budget cancelledAt exec limit start left p)
    (h : Progress.Ended transport budget cancelledAt exec left p run) {xs : List Exchange}
    {x : Exchange} (hx : run.exchanges = xs ++ [x])
    (hsettles : x.Settles exec (xs.length + 1) result)
    {cancelledAt' : σ → Option Time}
    (hcalls : ∀ ys y zs, run.exchanges = ys ++ y :: zs →
      ∀ c ∈ cancelledAt' (transport.after start.scene.world ys), y.call.time < c) :
    Progress.advance transport budget cancelledAt' exec (limit + 1) start = run := by
  obtain ⟨q, isOpen, attempt, call, rfl, rfl⟩ :=
    h.of_last_settles (hp.failing hfailing) hleft hx hsettles
  obtain ⟨-, hintime⟩ := (Progress.open_iff budget cancelledAt p).1 isOpen
  -- The state before the last call is reached in the same way, and the call is made.
  have hlast : ∀ c ∈ cancelledAt' p.scene.world, p.scene.now < c := by
    rw [(hp.recorded hstart).world, ← call.time]
    exact hcalls p.exchanges x [] hx
  have hreached := hp.transfer hstart (fun ys y zs he => hcalls ys y (zs ++ [x])
    (by rw [hx, he, List.append_assoc, List.cons_append])) hlast
  have hended : Progress.Ended transport budget cancelledAt' exec left p (q.finish result) :=
    .settled ((Progress.open_iff budget cancelledAt' p).2 ⟨hlast, hintime⟩) attempt
  rw [hreached.advance_eq, ← hended.eq_advance]

/-- A request that is never cancelled runs as it would without a cancellation. -/
theorem Progress.Ended.uncancelled (hstart : start.exchanges = [])
    (hp : Progress.Reached transport budget cancelledAt exec limit start left p)
    (h : Progress.Ended transport budget cancelledAt exec left p run)
    (hnone : ∀ us vs, run.exchanges = us ++ vs →
      cancelledAt (transport.after start.scene.world us) = none) :
    Progress.advance transport budget (fun _ => none) exec (limit + 1) start = run := by
  have hrecorded := hp.recorded hstart
  obtain ⟨q, hq, hexchanges, hscene⟩ := h.recorded hrecorded
  -- A cancellation that never comes is never too early.
  have hreached : Progress.Reached transport budget (fun _ => none) exec limit start left p :=
    hp.transfer hstart (fun _ _ _ _ => nofun) nofun
  have hended : Progress.Ended transport budget (fun _ => none) exec left p run := by
    refine h.congr ?_ ?_
    · -- What the run has called before its last attempt is a beginning of its calls.
      obtain ⟨zs, hzs⟩ := h.exchanges_prefix
      rw [hrecorded.world]
      exact hnone p.exchanges zs hzs
    · rw [hscene, hq.world, ← hexchanges]
      exact hnone run.exchanges [] (List.append_nil _).symm
  rw [hreached.advance_eq, ← hended.eq_advance]

/-- A run of the loop from its start is timely. -/
theorem Progress.Ended.timely (hlimit : budget.maxAttempts = limit + 1)
    (hstart : start.exchanges = []) (hattempts : start.attempts = 0) (hfailing : start.Failing exec)
    (hp : Progress.Reached transport budget cancelledAt exec limit start left p)
    (h : Progress.Ended transport budget cancelledAt exec left p run) :
    Timely transport budget exec start.scene
      (fun cancelledAt' => Progress.advance transport budget cancelledAt' exec (limit + 1) start)
      cancelledAt run := by
  have hleft : p.attempts + left + 1 = budget.maxAttempts := by
    have hcount := hp.attempts_add_left
    omega
  have hstopped := h.settled_or_stopped (hp.failing hfailing) hleft
  obtain ⟨q, hontime, hexchanges, hscene⟩ := h.onTime (hp.onTime hstart) (hp.recorded hstart)
  -- A result that names a deadline or a cancellation is of the loop, or is given by the request.
  have hreported : (∀ attempts last, run.result = .error (.deadlineExceeded attempts last) →
      (run.scene.Overdue budget ∧ ¬ run.scene.Cancelled cancelledAt) ∨
        exec.Gives (.deadlineExceeded attempts last)) ∧
      ∀ attempts last, run.result = .error (.cancelled attempts last) →
        run.scene.Cancelled cancelledAt ∨ exec.Gives (.cancelled attempts last) := by
    rcases hstopped with ⟨x, q, result, -, -, -, hsettles, rfl⟩ | ⟨-, hstopped⟩
    · exact ⟨fun _ _ he => .inr (hsettles.gives he (.inl rfl)),
        fun _ _ he => .inr (hsettles.gives he (.inr rfl))⟩
    · exact hstopped.reported
  exact {
    beforeDeadline := hexchanges ▸ hontime.beforeDeadline
    beforeCancellation := hexchanges ▸ hontime.beforeCancellation
    returned := hscene ▸ hontime.clock
    deadlineExceeded := hreported.1
    cancelled := hreported.2
    interrupted := by
      -- A call that settles the request is no failure, so the request has stopped by itself.
      intro hfailed hfewer
      rcases hstopped with ⟨x, q, result, -, -, call, hsettles, rfl⟩ | ⟨-, hstopped⟩
      · obtain ⟨failure, hfails⟩ := hfailed x (by simp [Progress.finish, call.exchanges])
        exact absurd hfails (hsettles.not_failsWith failure)
      · exact hstopped.interrupted hfewer
    inFlight := by
      intro xs x result hx hsettles
      obtain ⟨q, -, -, -, -, rfl⟩ := h.of_last_settles (hp.failing hfailing) hleft hx hsettles
      exact ⟨rfl, fun cancelledAt' => h.inFlight hstart hfailing hleft hp hx hsettles⟩
    abandoned := by
      rintro handle hhandle hstep ⟨xs, ys, hxs, habandoned⟩
      refine h.uncancelled hstart hp fun us vs hus => ?_
      rw [hhandle]
      exact Transport.uncancelled_of_abandoned hstep hxs habandoned us vs hus }

end

/-- Every request, whatever it executes, its settings, what the outside does and when the caller
cancels, is either refused for what the caller gave, without a call and at once, or timely. None of
the requests that the library makes gives a deadline or a cancellation by itself. -/
theorem execute_timely (transport : Transport σ) (config : ClientConfig) (network : Network)
    (exec : Executable α) (options : ExecuteOptions σ) (scene : Scene σ) :
    let request := fun cancelledAt : σ → Option Time =>
      execute transport config network exec { options with cancelledAt := cancelledAt } scene
    let run := execute transport config network exec options scene
    ((∃ budget selection network', Budget.resolve config options scene.now = .ok budget ∧
        candidates network exec = .ok (selection, network') ∧
        Timely transport budget exec scene request options.cancelledAt run) ∨
      ∃ fault, (Budget.resolve config options scene.now = .error (.invalidArgument fault) ∨
          candidates network exec = .error (.invalidArgument fault)) ∧
        run = ⟨.error (.invalidArgument fault), scene, network, []⟩) ∧
    (exec.Offered → ∀ attempts last,
      ¬ exec.Gives (.deadlineExceeded attempts last) ∧
        ¬ exec.Gives (.cancelled attempts last)) := by
  intro request run
  refine ⟨?_, Executable.Offered.not_gives⟩
  rcases execute_accepted_or_refused transport config network exec options scene with
    ⟨budget, selection, network', hbudget, hcand⟩ | hrefused
  · obtain ⟨limit, left, p, hlimit, hreached, hended⟩ :=
      execute_ended transport options hbudget hcand
    have htimely := hended.timely hlimit rfl rfl (Progress.failing_fresh exec scene network' _)
      hreached
    -- The budget does not depend on the cancellation, so neither does the beginning of the run.
    have hrequest : request = fun cancelledAt => Progress.advance transport budget cancelledAt
        exec (limit + 1) (.fresh scene network' selection) := by
      funext cancelledAt
      rw [← hlimit]
      exact execute_eq_advance hbudget hcand
    rw [hrequest]
    exact .inl ⟨budget, selection, network', hbudget, hcand, htimely⟩
  · exact .inr hrefused

/-- The cancellation comes while the node is at work, and its answer decides. -/
example : (execute Simulation.ScriptedLedger.transport .default .testnet
    (Balance.query ⟨0, 0, 2⟩ none) { cancelledAt := fun _ => some 1 }
    ⟨0, { balance := 7, scripts := [(⟨0, 0, 3⟩, [⟨5, .serve⟩])] }⟩).result =
      .ok ⟨⟨0, 0, 2⟩, 7⟩ := rfl

/-- The cancellation comes together with the deadline, in the wait after an attempt that failed. -/
example : (execute Simulation.ScriptedLedger.transport .default .testnet
    (Balance.query ⟨0, 0, 2⟩ none) { deadline := some 9, cancelledAt := fun _ => some 9 }
    ⟨0, { scripts := [(⟨0, 0, 3⟩, [⟨5, .fault .reset⟩])] }⟩).result =
      .error (.cancelled 1 (some (.transport ⟨0, 0, 3⟩ .reset))) := rfl

end LedgerClient
