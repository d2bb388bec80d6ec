import LedgerClient.Proofs.Retry.Trace
import LedgerClient.Proofs.Retry.Waiting

/-!
# `LedgerClient.Proofs.Retry.Uninterrupted`: requests that only their calls end

A request without a deadline that nobody cancels has only two ways to
end: a call settles it, or the last call that it may make fails. So it
makes at least one call. `Uninterrupted` is this law, which is stronger
than `Decided` where there is nothing that could interrupt;
`execute_uninterrupted` proves it by going through the six endings of a
run, of which four take an interruption.

What becomes of a submission and of a question for a receipt is then a
matter of their calls alone: an acceptance, or a receipt that is final,
and one of a few errors otherwise.
-/

set_option autoImplicit false

namespace LedgerClient

variable {σ α : Type}

/-- The answer of the node is nothing that can be read. -/
def Exchange.Unreadable (x : Exchange) : Prop :=
  ∃ bytes, x.outcome = .ok bytes ∧ Wire.Response.codec.decode? bytes = none

/-- How the calls of a request decide its result if nothing interrupts it: all but the last failed,
and the last settled it or failed as the last that was allowed. -/
inductive Uninterrupted (exec : Executable α) (limit : Nat) :
    List Exchange → Except Error α → Prop
  | settled {earlier : List Exchange} {x : Exchange} {result : Except Error α}
      (retried : ∀ y ∈ earlier, ∃ failure, y.FailsWith exec failure)
      (within : earlier.length < limit)
      (settles : x.Settles exec (earlier.length + 1) result) :
      Uninterrupted exec limit (earlier ++ [x]) result
  | spent {earlier : List Exchange} {x : Exchange} {failure : AttemptFailure}
      (retried : ∀ y ∈ earlier, ∃ failure, y.FailsWith exec failure)
      (fails : x.FailsWith exec failure) (all : earlier.length + 1 = limit) :
      Uninterrupted exec limit (earlier ++ [x]) (.error (.maxAttemptsExceeded limit (some failure)))

section
variable {exec : Executable α} {limit : Nat} {exchanges : List Exchange} {result : Except Error α}

/-- A request that nothing interrupts makes a call. -/
theorem Uninterrupted.exchanges_ne_nil (h : Uninterrupted exec limit exchanges result) :
    exchanges ≠ [] := by
  cases h <;> simp

/-- A request that nothing interrupts is decided by its calls. -/
theorem Uninterrupted.decided (h : Uninterrupted exec limit exchanges result) :
    Decided exec limit exchanges result := by
  cases h with
  | settled retried within settles => exact .settled retried within settles
  | spent retried fails all =>
    subst all
    exact .failed retried fails (.spent rfl)

/-- A request that nothing interrupts fails because it was refused, because it came too late, or
because every attempt failed, unless the last answer could not be read or means an error. -/
theorem Uninterrupted.error_cases {e : Error} (h : Uninterrupted exec limit exchanges (.error e)) :
    e.isLedgerError = true ∨ (e = .codec .undecodable ∧ ∃ x ∈ exchanges, x.Unreadable) ∨
      ∃ x ∈ exchanges, ∃ response, exec.verdict response = .finished ∧
        exec.result x.call.node response = .error e := by
  generalize hresult : Except.error e = result at h
  cases h with
  | @settled earlier x _ _ _ settles =>
    -- Only a call that settles the request, or the last of those that failed, is left to look at.
    cases settles with
    | finished _ _ verdict => exact .inr (.inr ⟨x, by simp, _, verdict, rfl⟩)
    | refused =>
      cases hresult
      exact .inl rfl
    | expired =>
      cases hresult
      exact .inl rfl
    | undecodable outcome decoded =>
      cases hresult
      exact .inr (.inl ⟨rfl, x, by simp, _, outcome, decoded⟩)
  | spent =>
    cases hresult
    exact .inl rfl

end

namespace Progress

variable {transport : Transport σ} {budget : Budget} {cancelledAt : σ → Option Time}
  {exec : Executable α} {left limit : Nat} {p : Progress σ} {run : Run σ α}

/-- However a request ends that stands before an attempt, its calls end it, if there is neither a
deadline nor a cancellation, and there is a request for the node that it would choose. -/
theorem Ended.uninterrupted (hp : p.Failing exec) (hleft : p.attempts + left = limit)
    (hdeadline : budget.deadline = none) (hcancelled : ∀ world, cancelledAt world = none)
    (hrequest : ∃ request,
      exec.request (p.selection.next (p.network.isHealthy p.scene.now)).1 = .ok request)
    (h : Ended transport budget cancelledAt exec left p run) :
    Uninterrupted exec (limit + 1) run.exchanges run.result := by
  -- Nothing of the kind ever comes, so four of the endings are ruled out.
  have huncancelled (scene : Scene σ) : ¬ scene.Cancelled cancelledAt := by
    rintro ⟨c, hc, -⟩
    rw [hcancelled] at hc
    cases hc
  have hintime (scene : Scene σ) : ¬ scene.Overdue budget := by
    rintro ⟨d, hd, -⟩
    rw [hdeadline] at hd
    cases hd
  cases h with
  | cancelled cancelled => exact absurd ((cancelled_iff cancelledAt p).1 cancelled) (huncancelled _)
  | overdue _ overdue => exact absurd ((deadlinePassed_iff budget p).1 overdue) (hintime _)
  | cancelledWaiting _ _ _ pause => exact absurd (cancelled_of_pause pause) (huncancelled _)
  | overdueWaiting _ _ _ pause => exact absurd (overdue_of_pause pause).1 (hintime _)
  | settled _ attempt =>
    rcases of_attempt_settled attempt with ⟨x, call, settles⟩ | ⟨e, -, he, -, -⟩
    · rw [call.attempts, hp.counted] at settles
      have hwithin : p.exchanges.length < limit + 1 := by
        rw [← hp.counted]
        omega
      simpa only [finish, call.exchanges] using Uninterrupted.settled hp.failed hwithin settles
    · obtain ⟨request, hok⟩ := hrequest
      rw [hok] at he
      cases he
  | @spent _ q _ attempt left_eq =>
    obtain ⟨x, call, fails, hlast⟩ := of_attempt_failed attempt
    have hcount : q.attempts = limit + 1 := by
      rw [call.attempts]
      omega
    -- All attempts have been used, each with a call.
    have hall : p.exchanges.length + 1 = limit + 1 := by
      rw [← hp.counted]
      omega
    simpa only [finish, call.exchanges, hcount, hlast] using
      Uninterrupted.spent hp.failed fails hall

end Progress

/-- Every run without a deadline and without a cancellation is ended by its calls. -/
theorem execute_uninterrupted {exec : Executable α} (hexec : exec.Offered)
    (transport : Transport σ) {config : ClientConfig} {network : Network}
    {options : ExecuteOptions σ} {scene : Scene σ} {budget : Budget} {selection : Selection}
    {network' : Network} (hbudget : Budget.resolve config options scene.now = .ok budget)
    (hcand : candidates network exec = .ok (selection, network'))
    (hdeadline : budget.deadline = none) (hcancelled : ∀ world, options.cancelledAt world = none) :
    let run := execute transport config network exec options scene
    Uninterrupted exec budget.maxAttempts run.exchanges run.result := by
  intro run
  obtain ⟨limit, left, p, hlimit, hreached, hended⟩ :=
    execute_ended transport options hbudget hcand
  rw [hlimit]
  refine hended.uninterrupted
    (hreached.failing (Progress.failing_fresh exec scene network' selection)) ?_ hdeadline
    hcancelled ?_
  · simpa [Progress.fresh] using hreached.attempts_add_left
  · refine hexec.request_ok hcand _ ?_
    rw [← show p.selection.candidates = selection.candidates from
      (hreached.recorded rfl).candidates]
    exact Selection.next_mem _ _

/-- The budget where neither the settings nor the caller say anything. -/
def Budget.usual : Budget where
  maxAttempts := ClientConfig.default.maxAttempts.toNat
  backoff := .ofBounds (milliseconds ClientConfig.default.minBackoffMs)
    (milliseconds ClientConfig.default.maxBackoffMs)
  requestTimeout := milliseconds ClientConfig.default.requestTimeoutMs
  deadline := none

/-- Where the caller says nothing, the settings decide. -/
theorem Budget.resolve_of_settings (config : ClientConfig) (now : Time) :
    resolve config ({} : ExecuteOptions σ) now =
      if config.maxAttempts = 0 then .error (.invalidArgument .noAttempts)
      else .ok {
        maxAttempts := config.maxAttempts.toNat
        backoff := .ofBounds (milliseconds config.minBackoffMs) (milliseconds config.maxBackoffMs)
        requestTimeout := milliseconds config.requestTimeoutMs
        deadline := config.deadlineMs.map fun ms => now + milliseconds ms } :=
  rfl

/-- The usual budget is that of a request without options, under the default settings. -/
theorem Budget.resolve_default (now : Time) :
    resolve .default ({} : ExecuteOptions σ) now = .ok usual := by
  rw [resolve_of_settings, if_neg (by decide)]
  rfl

/-- A request for nodes of the network has candidates. -/
theorem candidates_of_known {network : Network} {exec : Executable α} {ids : List AccountId}
    (hids : exec.nodeIds = some ids) (hne : ids ≠ []) (hknown : ∀ id ∈ ids, id ∈ network.ids) :
    ∃ selection, candidates network exec = .ok (selection, network) := by
  -- Every account is that of a node, so each of them is found.
  have hnodes : ∃ nodes, network.nodesFor ids = .ok nodes := by
    cases hn : network.nodesFor ids with
    | ok nodes => exact ⟨nodes, rfl⟩
    | error e =>
      obtain ⟨id, hid, hnone, -⟩ := Network.nodesFor_eq_error hn
      obtain ⟨node, hnode, haccount⟩ := List.mem_map.1 (hknown id hid)
      have hother := List.find?_eq_none.1 hnone node hnode
      exact absurd haccount (by simpa using hother)
  obtain ⟨nodes, hnodes⟩ := hnodes
  have hsome : nodes ≠ [] := by
    rintro rfl
    exact hne (Network.nodesFor_eq_ok hnodes).2.symm
  refine ⟨.ofNodes nodes hsome, ?_⟩
  rw [candidates, hids]
  simp only [Network.selectionFor, hnodes, bind, Except.bind, hsome, dif_neg, not_false_eq_true]
  rfl

/-- What a request for nodes of the network does where neither the settings nor the caller say
anything: its calls end it, they go to these nodes, and the outside has seen no others. -/
theorem execute_usual {exec : Executable α} (hexec : exec.Offered) {ids : List AccountId}
    (hids : exec.nodeIds = some ids) (hne : ids ≠ []) {network : Network}
    (hknown : ∀ id ∈ ids, id ∈ network.ids) (transport : Transport σ) (scene : Scene σ) :
    let run := execute transport .default network exec {} scene
    Uninterrupted exec Budget.usual.maxAttempts run.exchanges run.result ∧
      (∀ x ∈ run.exchanges,
        x.call.node.accountId ∈ ids ∧ exec.request x.call.node = .ok x.call.request) ∧
      transport.Traced .usual scene.world run.exchanges ∧
      run.scene.world = transport.after scene.world run.exchanges := by
  intro run
  obtain ⟨selection, hcand⟩ := candidates_of_known hids hne hknown
  have hbudget := Budget.resolve_default (σ := σ) scene.now
  have hended := execute_uninterrupted hexec transport hbudget hcand rfl fun _ => rfl
  obtain ⟨hasked, htraced, hworld⟩ := execute_recorded transport {} hbudget hcand
  refine ⟨hended, fun x hx => ⟨?_, (hasked x hx).2⟩, htraced, hworld⟩
  rw [← candidates_of_nodeIds hids hcand]
  exact List.mem_map_of_mem (hasked x hx).1

end LedgerClient
