import LedgerClient.Proofs.Network.Rounds
import LedgerClient.Proofs.Retry.Run

/-!
# `LedgerClient.Proofs.Retry.Turns`: attempts go to one node after another

A request makes one choice for each attempt, so its calls go to nodes
as its selection chooses them, and keep the law of choices. The law
holds whatever happens to the network in between, and that is what
makes it a law of requests that share one: between two attempts of a
request, others may fail or succeed at any of the nodes.

`Progress.Amid` is every state in which a request stands before an
attempt while anything else may go on between its attempts. A request
that runs alone is the case in which only time passes
(`Progress.Reached.amid`), so `nodes_take_turns` covers both.
-/

set_option autoImplicit false

namespace LedgerClient

variable {σ α : Type}

/-- The account that was called. -/
def Exchange.account (x : Exchange) : AccountId := x.call.node.accountId

namespace Progress

section
variable (transport : Transport σ) (budget : Budget) (exec : Executable α)

/-- The states in which a request stands before an attempt when it is not alone: after each failed
attempt, the time, the outside and the network may be any. -/
inductive Amid (start : Progress σ) : Progress σ → Prop
  | start : Amid start start
  | again {p q : Progress σ} {failure : AttemptFailure} (amid : Amid start p)
      (attempt : p.attempt transport budget exec = (.failed failure, q)) (scene : Scene σ)
      (network : Network) : Amid start { q with scene := scene, network := network }

end

/-- The calls of a request went to nodes as its selection chose them. -/
def Chose (s : Selection) (p : Progress σ) : Prop :=
  ∃ choices, s.Chosen choices p.selection ∧
    choices.map Choice.account = p.exchanges.map Exchange.account

section
variable {transport : Transport σ} {budget : Budget} {cancelledAt : σ → Option Time}
  {exec : Executable α} {limit : Nat} {start p q : Progress σ} {x : Exchange} {s : Selection}

/-- A request that runs alone is one among others that do nothing. -/
theorem Reached.amid {left : Nat}
    (h : Reached transport budget cancelledAt exec limit start left p) :
    Amid transport budget exec start p := by
  induction h with
  | start => exact .start
  | @again _ _ q _ t _ _ attempt _ ih => exact ih.again attempt ⟨t, q.scene.world⟩ q.network

/-- A call is one more choice. -/
theorem Chose.call (h : p.Chose s) (hc : p.Calls transport budget exec x q) : q.Chose s := by
  obtain ⟨choices, hchosen, haccounts⟩ := h
  refine ⟨_, hc.selection ▸ hchosen.next ⟨p.network, p.scene.now⟩, ?_⟩
  rw [hc.exchanges, List.map_append, List.map_append, haccounts, List.map_singleton,
    List.map_singleton, Exchange.account, hc.node]
  rfl

/-- What else goes on does not choose for the request. -/
theorem Amid.chose (h : Amid transport budget exec start p) (hstart : start.exchanges = []) :
    p.Chose start.selection := by
  induction h with
  | start => exact ⟨[], .nil, by rw [hstart]; rfl⟩
  | @again _ q _ _ attempt scene network ih =>
    obtain ⟨x, call, -, -⟩ := of_attempt_failed attempt
    exact (ih.call call : q.Chose start.selection)

/-- A request that has begun with an unused selection has called nodes by the law of choices. -/
theorem Chose.spreads {net : Network} {ids : List AccountId} (hs : net.Offers ids s)
    (h : p.Chose s) : s.Spreads (p.exchanges.map Exchange.account) := by
  obtain ⟨choices, hchosen, haccounts⟩ := h
  obtain ⟨htried, hlast⟩ := hs.unused
  rw [← haccounts]
  exact (hchosen.takesTurns htried hlast).spreads

/-- An attempt calls a node that was chosen, or none. -/
theorem Chose.attempt (h : p.Chose s) (transport : Transport σ) (budget : Budget)
    (exec : Executable α) :
    ∃ q : Progress σ, q.Chose s ∧
      (p.attempt transport budget exec).2.exchanges = q.exchanges := by
  have hattempted := attempted transport budget exec p
  generalize p.attempt transport budget exec = outcome at hattempted
  cases hattempted with
  | unasked => exact ⟨p, h, rfl⟩
  | @failed _ _ q call => exact ⟨q, h.call call, rfl⟩
  | @settled _ _ q call => exact ⟨q, h.call call, rfl⟩

/-- However a request ends, its calls went to nodes as its selection chose them. -/
theorem Ended.chose {left : Nat} {run : Run σ α} (hp : p.Chose s)
    (h : Ended transport budget cancelledAt exec left p run) :
    ∃ q : Progress σ, q.Chose s ∧ run.exchanges = q.exchanges := by
  rcases h.final with ⟨hexchanges, -⟩ | ⟨x, q, -, call, hexchanges, -⟩
  · exact ⟨p, hp, hexchanges⟩
  · exact ⟨q, hp.call call, hexchanges⟩

end

end Progress

/-- The candidates of a request are a selection that the network offers. -/
theorem candidates_offers {network network' : Network} {exec : Executable α} {s : Selection}
    (h : candidates network exec = .ok (s, network')) : ∃ ids, network.Offers ids s := by
  unfold candidates at h
  -- The candidates are those that the cursor offers, or the given ones.
  cases hids : exec.nodeIds with
  | none =>
    simp only [hids, Except.ok.injEq] at h
    have hs : s = network.selection.1 := by rw [h]
    rw [hs]
    exact ⟨network.turn.map Node.accountId, .all fun _ => Iff.rfl⟩
  | some ids =>
    cases hs : network.selectionFor ids with
    | error e => simp [hids, hs, Except.map] at h
    | ok selection =>
      simp only [hids, hs, Except.map, Except.ok.injEq, Prod.mk.injEq] at h
      exact ⟨ids, h.1 ▸ .given hs⟩

/-- For every network, and every list of accounts that it accepts or all of its own: whatever nodes
fail or answer between two choices, and however time passes, a selection chooses candidates, each of
the `m` accounts once in its first `m` choices and once in each round after that, none twice in a
row if there is another, and an unhealthy one only if all that are left in the round are unhealthy.
The attempts of a request go to nodes in this way, whatever else goes on in between them, and so do
those of every request that runs alone. -/
theorem nodes_take_turns {net : Network} {ids : List AccountId} {s : Selection}
    (hs : net.Offers ids s) :
    (∀ id, id ∈ s.accounts ↔ id ∈ ids) ∧
    (∀ (now : Time) (events : List Selection.Use.Event),
      let choices := ((Selection.Use.begin net now s).run events).choices
      s.TakesTurns choices ∧ s.Spreads (choices.map Choice.account)) ∧
    (∀ {σ α : Type} (transport : Transport σ) (budget : Budget) (exec : Executable α)
      (start p : Progress σ), start.selection = s → start.exchanges = [] →
      Progress.Amid transport budget exec start p →
      s.Spreads ((p.attempt transport budget exec).2.exchanges.map Exchange.account)) ∧
    ∀ {σ α : Type} (transport : Transport σ) (config : ClientConfig) (exec : Executable α)
      (options : ExecuteOptions σ) (scene : Scene σ) (s' : Selection) (net' : Network),
      candidates net exec = .ok (s', net') →
      s'.Spreads ((execute transport config net exec options scene).exchanges.map
        Exchange.account) := by
  obtain ⟨htried, hlast⟩ := hs.unused
  refine ⟨hs.mem_accounts, ?_, ?_, ?_⟩
  · intro now events choices
    have hbegin : s.Chosen (Selection.Use.begin net now s).choices s := .nil
    have hturns := (Selection.Use.chosen_run hbegin events).takesTurns htried hlast
    exact ⟨hturns, hturns.spreads⟩
  · -- The attempt may make one more choice, as the selection would have it.
    rintro σ α transport budget exec start p rfl hstart hamid
    obtain ⟨q, hq, hexchanges⟩ := (hamid.chose hstart).attempt transport budget exec
    rw [hexchanges]
    exact hq.spreads hs
  · intro σ α transport config exec options scene s' net' hcand
    obtain ⟨ids', hs'⟩ := candidates_offers hcand
    rcases execute_accepted_or_refused transport config net exec options scene with
      ⟨budget, -, -, hbudget, -⟩ | ⟨fault, -, hrefused⟩
    · -- What a request has called when it ends is what its selection has chosen.
      obtain ⟨limit, left, p, -, hreached, hended⟩ :=
        execute_ended transport options hbudget hcand
      obtain ⟨q, hq, hexchanges⟩ := hended.chose (hreached.amid.chose rfl)
      rw [hexchanges]
      exact hq.spreads hs'
    · -- A request that is refused calls nobody.
      have hnone : (Progress.fresh scene net s').Chose s' := ⟨[], .nil, rfl⟩
      rw [hrefused]
      exact hnone.spreads hs'

/-- Two nodes of the test network, one of them listed twice. -/
def relisted : List AccountId := [⟨0, 0, 3⟩, ⟨0, 0, 4⟩, ⟨0, 0, 3⟩]

/-- A selection over the two nodes. -/
def relistedSelection : Selection :=
  .ofNodes [⟨⟨0, 0, 3⟩, "0.testnet.hedera.com:50211"⟩, ⟨⟨0, 0, 4⟩, "1.testnet.hedera.com:50211"⟩,
    ⟨⟨0, 0, 3⟩, "0.testnet.hedera.com:50211"⟩] (by simp)

/-- The node that is listed twice has failed before the first choice, and answers after the
third. -/
def relistedUse : Selection.Use :=
  (Selection.Use.begin .testnet 0 relistedSelection).run
    [.change (.failed ⟨0, 0, 3⟩), .choose, .choose, .choose, .change (.answered ⟨0, 0, 3⟩), .choose]

/-- The healthy node goes first, and then they take turns. -/
theorem nodes_take_turns_relisted :
    Network.testnet.Offers relisted relistedSelection ∧ relistedSelection.accounts.length = 2 ∧
      relistedUse.choices.map Choice.account =
        [⟨0, 0, 4⟩, ⟨0, 0, 3⟩, ⟨0, 0, 4⟩, ⟨0, 0, 3⟩] ∧
      relistedSelection.TakesTurns relistedUse.choices ∧
      relistedSelection.Spreads (relistedUse.choices.map Choice.account) :=
  have hoffers : Network.testnet.Offers relisted relistedSelection :=
    .given (show Network.testnet.selectionFor relisted = .ok _ from rfl)
  ⟨hoffers, by decide, by decide, (nodes_take_turns hoffers).2.1 0 _⟩

end LedgerClient
