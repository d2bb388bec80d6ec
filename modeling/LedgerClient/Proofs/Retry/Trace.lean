import LedgerClient.Proofs.Retry.Run
import LedgerClient.Request.Submission
import LedgerClient.Simulation.ScriptedLedger

/-!
# `LedgerClient.Proofs.Retry.Trace`: the last call decides

The calls of a request are at most as many as its budget allows. Every
one but the last was worth another attempt, so the last one alone says
what becomes of the request: either it settles the request, and the
result is what it says, or the request is given up, and the error names
the number of calls and what the last one came to. `Decided` is this
law, and `Progress.Failing` the invariant behind it: before every
attempt, the counter is the number of calls, each of them failed, and
the recorded failure is that of the last one.

The law is about the requests that the library makes, `Offered`. Each
of them has a request for every node that it may be sent to
(`Offered.request_ok`), so an attempt always is a call.
-/

set_option autoImplicit false

namespace LedgerClient

variable {σ α : Type}

/-! ### The requests that the library makes -/

/-- The requests that the library makes: submissions, and the two questions. -/
inductive Executable.Offered : {α : Type} → Executable α → Prop
  | submission (f : Frozen) : Offered f.submission
  | receipt (id : TransactionId) (nodes : Option (List AccountId)) :
      Offered (Receipt.query id nodes)
  | balance (account : AccountId) (nodes : Option (List AccountId)) :
      Offered (Balance.query account nodes)

/-- A node that the transaction was frozen for has its body. -/
theorem Frozen.bodyAt?_of_mem {f : Frozen} {node : AccountId} (h : node ∈ f.nodeIds) :
    ∃ b, f.bodyAt? node = some b ∧ b ∈ f.bodies ∧ b.node = node := by
  obtain ⟨b, hb, hnode⟩ := List.mem_map.1 h
  have hsome : (f.bodyAt? node).isSome := List.find?_isSome.2 ⟨b, hb, by simpa using hnode⟩
  obtain ⟨b', hb'⟩ := Option.isSome_iff_exists.1 hsome
  exact ⟨b', hb', List.mem_of_find?_eq_some hb', by simpa using List.find?_some hb'⟩

/-- A request for given accounts has the candidates that the network selects for them. -/
theorem selectionFor_of_candidates {network network' : Network} {exec : Executable α}
    {selection : Selection} {ids : List AccountId} (hids : exec.nodeIds = some ids)
    (h : candidates network exec = .ok (selection, network')) :
    network.selectionFor ids = .ok selection := by
  rw [candidates, hids] at h
  cases hs : network.selectionFor ids with
  | error e => simp [hs, Except.map] at h
  | ok s =>
    simp only [hs, Except.map, Except.ok.injEq, Prod.mk.injEq] at h
    rw [h.1]

/-- A request for given accounts has one candidate for each, in their order. -/
theorem candidates_of_nodeIds {network network' : Network} {exec : Executable α}
    {selection : Selection} {ids : List AccountId} (hids : exec.nodeIds = some ids)
    (h : candidates network exec = .ok (selection, network')) :
    selection.candidates.map Node.accountId = ids :=
  (Network.selectionFor_eq_ok (selectionFor_of_candidates hids h)).2.1

/-- There is a request for every node that the request may be sent to. -/
theorem Executable.Offered.request_ok {exec : Executable α} (hexec : exec.Offered)
    {network network' : Network} {selection : Selection}
    (h : candidates network exec = .ok (selection, network')) :
    ∀ node ∈ selection.candidates, ∃ request, exec.request node = .ok request := by
  intro node hnode
  -- A transaction has a body for each of its nodes, and a question is the same for all.
  cases hexec with
  | submission f =>
    have hmem : node.accountId ∈ f.nodeIds := by
      rw [← candidates_of_nodeIds rfl h]
      exact List.mem_map_of_mem hnode
    obtain ⟨b, hb, -, -⟩ := f.bodyAt?_of_mem hmem
    exact ⟨requestBytes (.submitTransaction ⟨b.bytes, b.signatures.toWire⟩), by
      simp only [Frozen.submission, Frozen.signed, hb, Except.map]⟩
  | receipt id nodes => exact ⟨_, rfl⟩
  | balance account nodes => exact ⟨_, rfl⟩

/-! ### How calls decide a result -/

/-- A request that is given up after some of at most `limit` calls, of which the last came to
`last`. It is given up for lack of attempts exactly when none is left. -/
inductive GaveUp (limit attempts : Nat) (last : Option AttemptFailure) : Except Error α → Prop
  | spent (all : attempts = limit) : GaveUp limit attempts last
      (.error (.maxAttemptsExceeded attempts last))
  | overdue (fewer : attempts < limit) : GaveUp limit attempts last
      (.error (.deadlineExceeded attempts last))
  | cancelled (fewer : attempts < limit) : GaveUp limit attempts last
      (.error (.cancelled attempts last))

/-- How the calls of a request decide its result. All but the last failed. If there was none, or
the last failed as well, the request was given up, and otherwise the last settled it. -/
inductive Decided (exec : Executable α) (limit : Nat) :
    List Exchange → Except Error α → Prop
  | uncalled {result : Except Error α} (gaveUp : GaveUp limit 0 none result) :
      Decided exec limit [] result
  | failed {earlier : List Exchange} {x : Exchange} {failure : AttemptFailure}
      {result : Except Error α}
      (retried : ∀ y ∈ earlier, ∃ failure, y.FailsWith exec failure)
      (fails : x.FailsWith exec failure)
      (gaveUp : GaveUp limit (earlier.length + 1) (some failure) result) :
      Decided exec limit (earlier ++ [x]) result
  | settled {earlier : List Exchange} {x : Exchange} {result : Except Error α}
      (retried : ∀ y ∈ earlier, ∃ failure, y.FailsWith exec failure)
      (within : earlier.length < limit)
      (settles : x.Settles exec (earlier.length + 1) result) :
      Decided exec limit (earlier ++ [x]) result

namespace Progress

/-- Before an attempt, every call so far has failed, they are counted, and what the last one
came to is recorded. -/
structure Failing (exec : Executable α) (p : Progress σ) : Prop where
  counted : p.attempts = p.exchanges.length
  failed : ∀ x ∈ p.exchanges, ∃ failure, x.FailsWith exec failure
  last : (p.exchanges = [] ∧ p.last = none) ∨
    ∃ earlier x failure, p.exchanges = earlier ++ [x] ∧ x.FailsWith exec failure ∧
      p.last = some failure

section
variable {transport : Transport σ} {budget : Budget} {cancelledAt : σ → Option Time}
  {exec : Executable α} {limit : Nat} {start p q : Progress σ} {x : Exchange}
  {failure : AttemptFailure}

/-- A request that has called nobody has no failure to record. -/
theorem failing_fresh (exec : Executable α) (scene : Scene σ) (network : Network)
    (selection : Selection) : (fresh scene network selection).Failing exec :=
  ⟨rfl, nofun, .inl ⟨rfl, rfl⟩⟩

/-- A failed call leaves a request in which every call has failed. -/
theorem Failing.call (h : p.Failing exec) (hc : p.Calls transport budget exec x q)
    (hx : x.FailsWith exec failure) (hlast : q.last = some failure) : q.Failing exec where
  counted := by rw [hc.attempts, hc.exchanges, h.counted, List.length_append]; rfl
  failed y hy := by
    rw [hc.exchanges] at hy
    rcases List.mem_append.1 hy with hy | hy
    · exact h.failed y hy
    · cases List.mem_singleton.1 hy
      exact ⟨failure, hx⟩
  last := .inr ⟨p.exchanges, x, failure, hc.exchanges, hx, hlast⟩

/-- After an attempt that is worth another one, every call has failed. -/
theorem Failing.attempt (h : p.Failing exec)
    (hattempt : p.attempt transport budget exec = (.failed failure, q)) :
    q.Failing exec ∧ q.attempts = p.attempts + 1 := by
  obtain ⟨x, call, fails, hlast⟩ := of_attempt_failed hattempt
  exact ⟨h.call call fails hlast, call.attempts⟩

/-- Time passes without a call. -/
theorem Failing.later (h : p.Failing exec) (t : Time) : (p.later t).Failing exec :=
  ⟨h.counted, h.failed, h.last⟩

/-- Every call before an attempt has failed. -/
theorem Reached.failing (hstart : start.Failing exec) {left : Nat}
    (h : Reached transport budget cancelledAt exec limit start left p) : p.Failing exec := by
  induction h with
  | start => exact hstart
  | again _ _ attempt _ ih => exact (ih.attempt attempt).1.later _

/-- A request that is given up before an attempt or after a failed one is decided by its calls,
since they have all failed. -/
theorem Failing.decided (h : p.Failing exec) {result : Except Error α}
    (hresult : GaveUp limit p.attempts p.last result) :
    Decided exec limit p.exchanges result := by
  rcases h.last with ⟨hnil, hlast⟩ | ⟨earlier, x, failure, hx, hfails, hlast⟩
  · rw [hnil]
    rw [h.counted, hnil, hlast] at hresult
    exact .uncalled hresult
  · rw [hx]
    rw [h.counted, hx, hlast, List.length_append] at hresult
    exact .failed (fun y hy => h.failed y (by simp [hx, hy])) hfails hresult

/-- However a request ends that stands before an attempt, its calls decide its result, as long
as there is a request for the node that it would choose. -/
theorem Ended.decided {left : Nat} {run : Run σ α} (hp : p.Failing exec)
    (hleft : p.attempts + left = limit)
    (hrequest : ∃ request,
      exec.request (p.selection.next (p.network.isHealthy p.scene.now)).1 = .ok request)
    (h : Ended transport budget cancelledAt exec left p run) :
    Decided exec (limit + 1) run.exchanges run.result := by
  cases h with
  | cancelled => exact hp.decided (.cancelled (by omega))
  | overdue => exact hp.decided (.overdue (by omega))
  -- The attempt has settled the request by a call, or without one if there was no request.
  | settled _ attempt =>
    rcases of_attempt_settled attempt with ⟨x, call, settles⟩ | ⟨e, -, he, -, -⟩
    · rw [call.attempts, hp.counted] at settles
      have hwithin : p.exchanges.length < limit + 1 := by rw [← hp.counted]; omega
      simpa only [finish, call.exchanges] using Decided.settled hp.failed hwithin settles
    · obtain ⟨request, hok⟩ := hrequest
      rw [hok] at he
      cases he
  -- After a failed attempt there is one more call, and it is counted.
  | spent _ attempt left_eq =>
    obtain ⟨hq, hcount⟩ := hp.attempt attempt
    exact hq.decided (.spent (by omega))
  | cancelledWaiting _ attempt left_ne =>
    obtain ⟨hq, hcount⟩ := hp.attempt attempt
    exact hq.decided (.cancelled (by omega))
  | overdueWaiting _ attempt left_ne =>
    obtain ⟨hq, hcount⟩ := hp.attempt attempt
    exact hq.decided (.overdue (by omega))

end

end Progress

/-- A request that is decided by its calls has not made more of them than it may. -/
theorem Decided.length_le {exec : Executable α} {limit : Nat} {exchanges : List Exchange}
    {result : Except Error α} (h : Decided exec limit exchanges result) :
    exchanges.length ≤ limit := by
  cases h with
  | uncalled => exact Nat.zero_le _
  | failed _ _ gaveUp =>
    rw [List.length_append]
    cases gaveUp with
    | spent all => exact Nat.le_of_eq all
    | overdue fewer => exact Nat.le_of_lt fewer
    | cancelled fewer => exact Nat.le_of_lt fewer
  | settled _ within => rwa [List.length_append]

/-- A call that settles a request is the last one of it, and decides its result. -/
theorem Decided.of_mem_settles {exec : Executable α} {limit attempts : Nat}
    {exchanges : List Exchange} {result result' : Except Error α}
    (h : Decided exec limit exchanges result) {x : Exchange} (hx : x ∈ exchanges)
    (hsettles : x.Settles exec attempts result') :
    ∃ earlier, exchanges = earlier ++ [x] ∧ x.Settles exec (earlier.length + 1) result := by
  -- The calls that are worth another attempt do not settle anything.
  have hretried {ys : List Exchange} (hys : ∀ y ∈ ys, ∃ failure, y.FailsWith exec failure) :
      x ∉ ys := by
    intro hmem
    obtain ⟨failure, hfails⟩ := hys x hmem
    exact hsettles.not_failsWith failure hfails
  cases h with
  -- Were the call among those that have failed, it would not settle anything.
  | uncalled => cases hx
  | @failed earlier y failure _ retried fails =>
    refine absurd hx (hretried fun z hz => ?_)
    rcases List.mem_append.1 hz with hz | hz
    · exact retried z hz
    · cases List.mem_singleton.1 hz
      exact ⟨failure, fails⟩
  | @settled earlier y _ retried _ settles =>
    rcases List.mem_append.1 hx with hx | hx
    · exact absurd hx (hretried retried)
    · cases List.mem_singleton.1 hx
      exact ⟨earlier, rfl, settles⟩

/-- A call whose answer is the end of a request decides its result. -/
theorem Decided.of_finished {exec : Executable α} {limit : Nat} {exchanges : List Exchange}
    {result : Except Error α} (h : Decided exec limit exchanges result) {x : Exchange}
    (hx : x ∈ exchanges) {bytes : Bytes} {response : Wire.Response}
    (outcome : x.outcome = .ok bytes)
    (decoded : Wire.Response.codec.decode? bytes = some response)
    (verdict : exec.verdict response = .finished) :
    result = exec.result x.call.node response := by
  have hfinished (attempts : Nat) :
      x.Settles exec attempts (exec.result x.call.node response) :=
    .finished outcome decoded verdict
  obtain ⟨earlier, -, hsettles⟩ := h.of_mem_settles hx (hfinished 0)
  exact hsettles.unique (hfinished (earlier.length + 1))

/-- A request succeeds only by a last call that does. -/
theorem Decided.of_ok {exec : Executable α} {limit : Nat} {exchanges : List Exchange} {a : α}
    (h : Decided exec limit exchanges (.ok a)) :
    ∃ x ∈ exchanges, ∃ bytes response, x.outcome = .ok bytes ∧
      Wire.Response.codec.decode? bytes = some response ∧ exec.verdict response = .finished ∧
      exec.result x.call.node response = .ok a := by
  generalize hresult : Except.ok a = result at h
  -- What is given up is no success, so the last call has settled the request.
  cases h with
  | uncalled gaveUp => cases gaveUp <;> cases hresult
  | failed _ _ gaveUp => cases gaveUp <;> cases hresult
  | @settled earlier x _ _ _ settles =>
    cases settles with
    | finished outcome decoded verdict =>
      exact ⟨x, by simp, _, _, outcome, decoded, verdict, rfl⟩
    | refused => cases hresult
    | expired => cases hresult
    | undecodable => cases hresult

section
variable {exec : Executable α} (transport : Transport σ) {config : ClientConfig}
  {network : Network} (options : ExecuteOptions σ) {scene : Scene σ} {budget : Budget}
  {selection : Selection} {network' : Network}

/-- The calls of every run decide its result. -/
theorem execute_decided (hexec : exec.Offered)
    (hbudget : Budget.resolve config options scene.now = .ok budget)
    (hcand : candidates network exec = .ok (selection, network')) :
    let run := execute transport config network exec options scene
    Decided exec budget.maxAttempts run.exchanges run.result := by
  intro run
  obtain ⟨limit, left, p, hlimit, hreached, hended⟩ :=
    execute_ended transport options hbudget hcand
  rw [hlimit]
  refine hended.decided (hreached.failing (Progress.failing_fresh exec scene network' selection))
    ?_ ?_
  · -- The attempts of the loop are counted from none.
    simpa [Progress.fresh] using hreached.attempts_add_left
  · -- The next choice is one of the candidates, and there is a request for each of them.
    refine hexec.request_ok hcand _ ?_
    rw [← show p.selection.candidates = selection.candidates from
      (hreached.recorded rfl).candidates]
    exact Selection.next_mem _ _

end

/-- For every request that the library makes, every budget, every accepted list of candidates,
and every behaviour of the outside, with or without a deadline and a cancellation: there are at
most as many calls as the budget allows. They are calls to candidates, with the request for the
node, they bring what the transport brings, cut off at the limit of an attempt, and the outside
has seen no others. And they decide the result: see `Decided`. -/
theorem last_call_decides {exec : Executable α} (hexec : exec.Offered)
    (transport : Transport σ) (config : ClientConfig) (network : Network)
    (options : ExecuteOptions σ) (scene : Scene σ) {budget : Budget}
    (hbudget : Budget.resolve config options scene.now = .ok budget) {selection : Selection}
    {network' : Network} (hcand : candidates network exec = .ok (selection, network')) :
    let run := execute transport config network exec options scene
    run.exchanges.length ≤ budget.maxAttempts ∧
      (∀ x ∈ run.exchanges,
        x.call.node ∈ selection.candidates ∧ exec.request x.call.node = .ok x.call.request) ∧
      transport.Traced budget scene.world run.exchanges ∧
      run.scene.world = transport.after scene.world run.exchanges ∧
      Decided exec budget.maxAttempts run.exchanges run.result := by
  intro run
  have hdecided := execute_decided transport options hexec hbudget hcand
  obtain ⟨hasked, htraced, hworld⟩ := execute_recorded transport options hbudget hcand
  exact ⟨hdecided.length_le, hasked, htraced, hworld, hdecided⟩

/-- A ledger of which the first node of the test network is unreachable at first, and the second
busy. -/
def unsteadyLedger : Simulation.ScriptedLedger where
  balance := 7
  scripts := [(⟨0, 0, 3⟩, [⟨0, .fault .reset⟩]),
    (⟨0, 0, 4⟩, [⟨1000000, .respond (.verdictOnly .busy)⟩])]

/-- A balance that is asked for until the third node says what it is. -/
def unsteadyBalance : Run Simulation.ScriptedLedger Balance :=
  execute Simulation.ScriptedLedger.transport .default .testnet (Balance.query ⟨0, 0, 2⟩ none)
    { maxAttempts := some 3 } ⟨0, unsteadyLedger⟩

/-- Two calls fail, and the third decides. -/
theorem last_call_decides_unsteady :
    unsteadyBalance.exchanges.length = 3 ∧
      unsteadyBalance.result = .ok ⟨⟨0, 0, 2⟩, 7⟩ ∧
      Decided (Balance.query ⟨0, 0, 2⟩ none) 3 unsteadyBalance.exchanges unsteadyBalance.result :=
  ⟨rfl, rfl,
    (last_call_decides (.balance ⟨0, 0, 2⟩ none) Simulation.ScriptedLedger.transport .default
      .testnet { maxAttempts := some 3 } ⟨0, unsteadyLedger⟩ rfl rfl).2.2.2.2⟩

end LedgerClient
