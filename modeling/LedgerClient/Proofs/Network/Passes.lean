import LedgerClient.Proofs.Network.Rounds

/-!
# `LedgerClient.Proofs.Network.Passes`: what a pass covers

A pass is all that a selection hands out from one wraparound to the next.
`Handout` keeps the number of wraparounds beside the account, so that
passes can be told apart from outside, and `Passes` ties them to what the
selection holds as tried. It is an invariant (`Passes.next`), and says
that every pass but the current one is complete. The number is that of
the passes before, however many there are. `Selection.rounds` shows it in
thirty-two bits, so it is the same up to `2 ^ 32 - 1`.

What is complete is not the pass alone. A pass after the first begins
with the last account of the pass before held as tried, and that one is
not handed out in it: `carried` is this account, and `covered` is the
pass with it. So a pass after the first hands out all accounts but one
(`passes_cover_all_but_carried`), unless there is only one.

Two passes that follow each other leave nobody out, since the account
that is carried into the second was handed out in the first. This is
`no_candidate_starves`, which rests on the rounds as `Spreads` counts
them and not on how the selection counts.
-/

set_option autoImplicit false

namespace LedgerClient

namespace Selection

/-! ### Handouts -/

/-- An account whose node was handed out, and how often the selection had wrapped around by then. -/
structure Handout where
  account : AccountId
  wraps : Nat
deriving DecidableEq, Repr

/-- What a selection in use hands out as some events happen. -/
def Use.handouts (u : Use) : List Use.Event → List Handout
  | [] => []
  | .choose :: events =>
    let (node, selection) := u.selection.next u.moment.isHealthy
    ⟨node.accountId, selection.wraps⟩ :: (u.step .choose).handouts events
  | .change c :: events => (u.step (.change c)).handouts events

/-- The accounts that were handed out after a number of wraparounds. -/
def pass (r : Nat) (handouts : List Handout) : List AccountId :=
  (handouts.filter fun h => h.wraps = r).map Handout.account

/-- The account that a pass among `m` accounts begins with as tried: the last one of the pass
before, if there is another. -/
def carried (m r : Nat) (handouts : List Handout) : List AccountId :=
  if 2 ≤ m ∧ 0 < r then (pass (r - 1) handouts).getLast?.toList else []

/-- The accounts that count as tried in a pass: the one it begins with, and those handed out. -/
def covered (m r : Nat) (handouts : List Handout) : List AccountId :=
  carried m r handouts ++ pass r handouts

section
variable {m r : Nat} {handouts : List Handout} {h : Handout}

/-- A handout joins the pass that it was made in, and no other. -/
theorem pass_concat : pass r (handouts ++ [h]) =
    pass r handouts ++ if h.wraps = r then [h.account] else [] := by
  by_cases hr : h.wraps = r <;> simp [pass, hr]

/-- A pass that has not begun is empty. -/
theorem pass_eq_nil (hbefore : ∀ h ∈ handouts, h.wraps < r) : pass r handouts = [] := by
  rw [pass, List.map_eq_nil_iff, List.filter_eq_nil_iff]
  intro h hh
  have hlt := hbefore h hh
  simp only [decide_eq_true_eq]
  omega

/-- A handout adds to its own pass, and to none before. -/
theorem covered_concat (hr : r ≤ h.wraps) : covered m r (handouts ++ [h]) =
    covered m r handouts ++ if h.wraps = r then [h.account] else [] := by
  have hcarried : carried m r (handouts ++ [h]) = carried m r handouts := by
    by_cases hm : 2 ≤ m ∧ 0 < r
    · have hother : h.wraps ≠ r - 1 := by omega
      simp [carried, hm, pass_concat, hother]
    · simp [carried, hm]
  rw [covered, covered, hcarried, pass_concat, List.append_assoc]

end

/-! ### The invariant -/

/-- How the passes stand after some handouts: what the selection holds as tried is what counts as
tried in the current pass, nobody counts twice, and in every pass before all accounts counted. -/
structure Passes (s : Selection) (handouts : List Handout) : Prop where
  past : ∀ h ∈ handouts, h.wraps ≤ s.wraps
  last : s.last = (pass s.wraps handouts).getLast?
  tried : ∀ id, id ∈ s.tried ↔ id ∈ covered s.accounts.length s.wraps handouts
  nodup : (covered s.accounts.length s.wraps handouts).Nodup
  complete : ∀ r < s.wraps, (covered s.accounts.length r handouts).Perm s.accounts
  inOrder : handouts.map Handout.account =
    (List.range (s.wraps + 1)).flatMap fun r => pass r handouts

variable {s : Selection} {handouts : List Handout}

/-- A selection is over some account, since it has a candidate. -/
theorem accounts_ne_nil (s : Selection) : s.accounts ≠ [] := by
  have hhead := List.head_mem s.candidates_ne_nil
  exact List.ne_nil_of_mem (s.mem_accounts.2 ⟨_, hhead, rfl⟩)

/-- Two accounts of a selection with less than two are the same. -/
theorem eq_of_mem_accounts (hm : s.accounts.length < 2) {id other : AccountId}
    (hid : id ∈ s.accounts) (hother : other ∈ s.accounts) : id = other := by
  obtain ⟨only, honly⟩ := List.length_eq_one_iff.1
    (Nat.le_antisymm (Nat.le_of_lt_succ hm) (List.length_pos_of_mem hid))
  rw [honly, List.mem_singleton] at hid hother
  rw [hid, hother]

/-- Before the last candidate of a round was handed out, no other round begins. -/
theorem opened_of_open (h : s.exhausted = false) : s.opened = s := by
  simp [opened, h]

/-- A call hands out an account that is not held as tried, unless all are. -/
theorem next_notMem_tried (h : s.opened.exhausted = false) (healthy : AccountId → Bool) :
    (s.next healthy).1.accountId ∉ s.opened.tried :=
  s.opened.choice_notMem_tried healthy h

/-- Handing out a node counts no wraparound; only beginning a round does. -/
theorem next_wraps (s : Selection) (healthy : AccountId → Bool) :
    (s.next healthy).2.wraps = s.opened.wraps := rfl

/-- A selection that has handed out nothing is in its first pass. -/
theorem passes_nil (htried : s.tried = []) (hlast : s.last = none) (hwraps : s.wraps = 0) :
    s.Passes [] := by
  refine ⟨nofun, hlast, ?_, ?_, ?_, ?_⟩
  · simp [htried, hwraps, covered, carried, pass]
  · simp [hwraps, covered, carried, pass]
  · simp [hwraps]
  · simp [hwraps, pass]

/-- The passes after a call, from what they were before it in the pass that the call belongs to. -/
theorem passes_concat {id : AccountId} (hlast : s.last = some id)
    (hpast : ∀ h ∈ handouts, h.wraps ≤ s.wraps)
    (htried : ∀ other, other ∈ s.tried ↔
      other ∈ covered s.accounts.length s.wraps handouts ++ [id])
    (hnodup : (covered s.accounts.length s.wraps handouts ++ [id]).Nodup)
    (hcomplete : ∀ r < s.wraps, (covered s.accounts.length r handouts).Perm s.accounts)
    (hinOrder : handouts.map Handout.account =
      (List.range (s.wraps + 1)).flatMap fun r => pass r handouts) :
    s.Passes (handouts ++ [⟨id, s.wraps⟩]) := by
  have hcovered : covered s.accounts.length s.wraps (handouts ++ [⟨id, s.wraps⟩]) =
      covered s.accounts.length s.wraps handouts ++ [id] := by
    rw [covered_concat (h := ⟨id, s.wraps⟩) (Nat.le_refl s.wraps), if_pos rfl]
  refine ⟨?_, ?_, ?_, ?_, fun r hr => ?_, ?_⟩
  · intro h hh
    rcases List.mem_append.1 hh with hh | hh
    · exact hpast h hh
    · rw [List.mem_singleton.1 hh]
  · rw [pass_concat, if_pos rfl, List.getLast?_concat, hlast]
  · rw [hcovered]
    exact htried
  · rw [hcovered]
    exact hnodup
  · -- The call is not part of any pass before the current one.
    have hother : s.wraps ≠ r := by omega
    rw [covered_concat (h := ⟨id, s.wraps⟩) (Nat.le_of_lt hr), if_neg hother, List.append_nil]
    exact hcomplete r hr
  · -- The passes before are as they were, and the account goes to the end of the current one.
    have hbefore : (List.range s.wraps).flatMap (fun r => pass r (handouts ++ [⟨id, s.wraps⟩])) =
        (List.range s.wraps).flatMap fun r => pass r handouts := by
      refine List.flatMap_congr fun r hr => ?_
      have hother : s.wraps ≠ r := by
        have := List.mem_range.1 hr
        omega
      rw [pass_concat, if_neg hother, List.append_nil]
    rw [List.range_succ, List.flatMap_append, List.flatMap_singleton] at hinOrder
    rw [List.range_succ, List.flatMap_append, List.flatMap_singleton, hbefore, pass_concat,
      if_pos rfl, ← List.append_assoc, ← hinOrder, List.map_append, List.map_singleton]

/-- What counts as tried are accounts of the selection. -/
theorem Passes.covered_subset (h : s.Passes handouts)
    (hstands : s.Stands (handouts.map Handout.account)) :
    ∀ id ∈ covered s.accounts.length s.wraps handouts, id ∈ s.accounts := by
  intro id hid
  exact hstands.chosen id (hstands.tried id ((h.tried id).2 hid))

/-- A pass is exhausted when all accounts count as tried in it. -/
theorem Passes.exhausted_iff (h : s.Passes handouts)
    (hstands : s.Stands (handouts.map Handout.account)) :
    s.exhausted = true ↔ (covered s.accounts.length s.wraps handouts).Perm s.accounts := by
  rw [s.exhausted_iff]
  constructor
  · intro hall
    refine (List.perm_ext_iff_of_nodup h.nodup (List.nodup_dedup _)).2 fun id => ?_
    exact ⟨h.covered_subset hstands id, fun hid => (h.tried id).1 (hall id hid)⟩
  · intro hperm id hid
    exact (h.tried id).2 (hperm.mem_iff.2 hid)

/-- A call in a pass that is not exhausted hands out another account of it. -/
theorem Passes.next_of_open (h : s.Passes handouts) (hopen : s.exhausted = false)
    (healthy : AccountId → Bool) : (s.next healthy).2.Passes
      (handouts ++ [⟨(s.next healthy).1.accountId, (s.next healthy).2.wraps⟩]) := by
  -- The pass is open, so a choice in it falls on an account that is not tried.
  have hnew : (s.next healthy).1.accountId ∉ s.tried := by
    have hchoice := next_notMem_tried (s := s) (by rwa [opened_of_open hopen]) healthy
    rwa [opened_of_open hopen] at hchoice
  have hwraps : (s.next healthy).2.wraps = s.wraps := by rw [next_wraps, opened_of_open hopen]
  refine passes_concat rfl ?_ ?_ ?_ ?_ ?_ <;> rw [hwraps]
  · exact h.past
  · intro other
    rw [next_tried, opened_of_open hopen, next_accounts, List.mem_cons, List.mem_append,
      List.mem_singleton, h.tried]
    exact Or.comm
  · rw [next_accounts, List.nodup_append]
    refine ⟨h.nodup, List.nodup_singleton _, fun id hid other hother heq => ?_⟩
    rw [List.mem_singleton.1 hother] at heq
    exact hnew ((h.tried _).2 (heq ▸ hid))
  · rw [next_accounts]
    exact h.complete
  · exact h.inOrder

/-- The pass after the current one has not begun. -/
theorem Passes.pass_succ (h : s.Passes handouts) : pass (s.wraps + 1) handouts = [] :=
  pass_eq_nil fun h' hh' => Nat.lt_succ_of_le (h.past h' hh')

/-- Before a pass has begun, only the last account counts as tried in it, if there is another. -/
theorem Passes.covered_succ (h : s.Passes handouts) :
    covered s.accounts.length (s.wraps + 1) handouts =
      if 2 ≤ s.accounts.length then s.last.toList else [] := by
  rw [covered, h.pass_succ, List.append_nil, carried, Nat.add_sub_cancel, ← h.last]
  simp

/-- After an exhausted pass, a call leaves as tried what counts as tried in the next one. -/
theorem Passes.mem_tried_of_exhausted (h : s.Passes handouts)
    (hstands : s.Stands (handouts.map Handout.account)) (hexhausted : s.exhausted = true)
    (healthy : AccountId → Bool) (other : AccountId) : other ∈ (s.next healthy).2.tried ↔
      other ∈ covered s.accounts.length (s.wraps + 1) handouts ++
        [(s.next healthy).1.accountId] := by
  -- What is covered at the beginning of a pass is what is carried into it.
  rw [next_tried, List.mem_cons, List.mem_append, List.mem_singleton, Or.comm, h.covered_succ]
  by_cases hm : 2 ≤ s.accounts.length
  · rw [if_pos hm, opened_tried_of_exhausted hm hexhausted]
  · -- There is only one account, so it makes no difference whether it is held as tried.
    rw [if_neg hm]
    refine ⟨fun hother => .inr ?_, fun hother => .inr (hother.resolve_left List.not_mem_nil)⟩
    rcases hother with hother | hother
    · have hmem := hstands.chosen other (hstands.opened_tried other hother)
      exact eq_of_mem_accounts (by omega) hmem (hstands.next_account healthy).1
    · exact hother

/-- After an exhausted pass, a call hands out another account than the one that is carried. -/
theorem Passes.nodup_of_exhausted (h : s.Passes handouts)
    (hstands : s.Stands (handouts.map Handout.account)) (hexhausted : s.exhausted = true)
    (healthy : AccountId → Bool) : (covered s.accounts.length (s.wraps + 1) handouts ++
      [(s.next healthy).1.accountId]).Nodup := by
  rw [h.covered_succ]
  -- The choice is another one than the last, which is the one that is carried.
  by_cases hm : 2 ≤ s.accounts.length
  · have hnew := next_notMem_tried (hstands.opened_exhausted hm) healthy
    rw [opened_tried_of_exhausted hm hexhausted] at hnew
    rw [if_pos hm]
    cases hlast : s.last with
    | none => exact List.nodup_singleton _
    | some last => simpa [hlast, eq_comm] using hnew
  · rw [if_neg hm]
    exact List.nodup_singleton _

/-- A call after an exhausted pass begins another one, and the exhausted one is complete. -/
theorem Passes.next_of_exhausted (h : s.Passes handouts)
    (hstands : s.Stands (handouts.map Handout.account)) (hexhausted : s.exhausted = true)
    (healthy : AccountId → Bool) : (s.next healthy).2.Passes
      (handouts ++ [⟨(s.next healthy).1.accountId, (s.next healthy).2.wraps⟩]) := by
  -- The number of passes goes up, and the exhausted one joins those that are complete.
  have hwraps : (s.next healthy).2.wraps = s.wraps + 1 := by
    simp [next_wraps, opened, hexhausted, newRound]
  refine passes_concat rfl ?_ ?_ ?_ ?_ ?_ <;> rw [hwraps]
  · intro h' hh'
    have := h.past h' hh'
    omega
  · rw [next_accounts]
    exact h.mem_tried_of_exhausted hstands hexhausted healthy
  · rw [next_accounts]
    exact h.nodup_of_exhausted hstands hexhausted healthy
  · rw [next_accounts]
    intro r hr
    rcases Nat.lt_succ_iff_lt_or_eq.1 hr with hr | rfl
    · exact h.complete r hr
    · exact (h.exhausted_iff hstands).1 hexhausted
  · rw [List.range_succ, List.flatMap_append, List.flatMap_singleton, h.pass_succ, List.append_nil]
    exact h.inOrder

/-- A call keeps the passes as they are said to stand. -/
theorem Passes.next (h : s.Passes handouts)
    (hstands : s.Stands (handouts.map Handout.account)) (healthy : AccountId → Bool) :
    (s.next healthy).2.Passes
      (handouts ++ [⟨(s.next healthy).1.accountId, (s.next healthy).2.wraps⟩]) := by
  cases hexhausted : s.exhausted with
  | false => exact h.next_of_open hexhausted healthy
  | true => exact h.next_of_exhausted hstands hexhausted healthy

/-- Nothing is carried into the first pass, or where there is only one account. -/
theorem carried_eq_nil {m r : Nat} (h : r = 0 ∨ m = 1) : carried m r handouts = [] :=
  if_neg (by omega)

/-- Into any other pass, an account is carried. -/
theorem Passes.exists_carried (h : s.Passes handouts) (hm : 2 ≤ s.accounts.length) {r : Nat}
    (hpos : 0 < r) (hr : r ≤ s.wraps) :
    ∃ last, carried s.accounts.length r handouts = [last] := by
  -- The pass before is not empty, since at most one account was carried into that one.
  have hbefore : pass (r - 1) handouts ≠ [] := by
    intro hnone
    have hlength := (h.complete (r - 1) (by omega)).length_eq
    have hcarried : (carried s.accounts.length (r - 1) handouts).length ≤ 1 := by
      unfold carried
      split
      · exact Option.length_toList_le
      · exact Nat.zero_le 1
    rw [covered, hnone, List.append_nil] at hlength
    omega
  -- So the pass before has a last account, which is the one that is carried.
  refine ⟨(pass (r - 1) handouts).getLast hbefore, ?_⟩
  rw [carried, if_pos ⟨hm, hpos⟩, List.getLast?_eq_some_getLast hbefore]
  rfl

/-- A pass that all accounts count in hands out all of them, unless one is carried into it. -/
theorem Passes.pass_covers_iff (h : s.Passes handouts) {r : Nat} (hr : r ≤ s.wraps)
    (hcovered : (covered s.accounts.length r handouts).Perm s.accounts) :
    (∀ id ∈ s.accounts, id ∈ pass r handouts) ↔ r = 0 ∨ s.accounts.length = 1 := by
  constructor
  · -- In a later pass one account is carried in, and cannot be handed out as well.
    intro hall
    by_contra hcarries
    have hpos := List.length_pos_iff.2 s.accounts_ne_nil
    obtain ⟨last, hcarried⟩ := h.exists_carried (by omega) (r := r) (by omega) hr
    rw [covered, hcarried] at hcovered
    -- The account that is carried in counts already, so it is not handed out as well.
    have hmem := hcovered.mem_iff.1 (List.mem_append_left _ List.mem_cons_self)
    have hnodup := hcovered.nodup_iff.2 (List.nodup_dedup _)
    exact (List.nodup_cons.1 hnodup).1 (hall last hmem)
  · intro hnone id hid
    have hid := hcovered.mem_iff.2 hid
    rwa [covered, carried_eq_nil hnone, List.nil_append] at hid

/-! ### Passes of a selection in use -/

namespace Use

/-- One more event happens to a selection as the earlier ones left it. -/
theorem run_concat (u : Use) (events : List Event) (e : Event) :
    u.run (events ++ [e]) = (u.run events).step e := by
  rw [run, List.foldl_append]
  rfl

/-- What one more event hands out comes last. -/
theorem handouts_concat (u : Use) (events : List Event) (e : Event) :
    u.handouts (events ++ [e]) = u.handouts events ++ (u.run events).handouts [e] := by
  induction events generalizing u with
  | nil => rfl
  | cons first events ih =>
    cases first with
    | choose => exact congrArg _ (ih (u.step .choose))
    | change c => exact ih (u.step (.change c))

/-- What is handed out is what is chosen. -/
theorem map_account_choices_run (u : Use) (events : List Event) :
    (u.run events).choices.map Choice.account =
      u.choices.map Choice.account ++ (u.handouts events).map Handout.account := by
  induction events generalizing u with
  | nil => exact (List.append_nil _).symm
  -- One call hands out one account, and a change of the network hands out none.
  | cons first events ih =>
    have hrest := ih (u.step first)
    cases first with
    | choose =>
      have hstep : (u.step .choose).choices.map Choice.account = u.choices.map Choice.account ++
          [(u.selection.next u.moment.isHealthy).1.accountId] := List.map_append
      rw [hstep, List.append_assoc] at hrest
      exact hrest
    | change c => exact hrest

variable {s : Selection} (net : Network) (now : Time) (events : List Event)

/-- However a selection is used, its choices are some that it can make. -/
theorem chosen_begin_run :
    s.Chosen ((begin net now s).run events).choices ((begin net now s).run events).selection :=
  chosen_run .nil events

/-- Where a selection stands after what it has handed out. -/
theorem stands_run (htried : s.tried = []) (hlast : s.last = none) :
    ((begin net now s).run events).selection.Stands
      (((begin net now s).handouts events).map Handout.account) := by
  have hstands := (chosen_begin_run net now events).stands htried hlast
  rwa [map_account_choices_run] at hstands

/-- Whatever happens, the passes of a selection stand as they are said to. -/
theorem passes_run (htried : s.tried = []) (hlast : s.last = none) (hwraps : s.wraps = 0) :
    ((begin net now s).run events).selection.Passes ((begin net now s).handouts events) := by
  induction events using List.reverseRecOn with
  | nil => exact passes_nil htried hlast hwraps
  | append_singleton events e ih =>
    rw [run_concat, handouts_concat]
    cases e with
    | choose => exact ih.next (stands_run net now events htried hlast) _
    | change c =>
      rw [show ((begin net now s).run events).handouts [.change c] = [] from rfl, List.append_nil]
      exact ih

end Use

end Selection

/-- A selection that a network offers has not wrapped around. -/
theorem Network.Offers.wraps {net : Network} {ids : List AccountId} {s : Selection}
    (h : net.Offers ids s) : s.wraps = 0 := by
  cases h with
  | all offered => rfl
  | given accepted =>
    obtain ⟨-, -, -, -, hwraps⟩ := selectionFor_eq_ok accepted
    exact hwraps

namespace Selection

/-- For every selection that a network offers over `m` accounts, whatever nodes fail or answer
between two calls, and however time passes: the calls are the passes, one after the other. In every
pass but the current one, each account is handed out once, except for the one that is carried into
it, which is the last of the pass before; so a pass hands out all of them exactly if it is the first
one, or if there is only one account. The selection is exhausted exactly if each account was handed
out in the current pass or carried into it, and then the same holds of the current pass. The rounds
are the passes before the current one, as long as their number has room in thirty-two bits. -/
theorem passes_cover_all_but_carried {net : Network} {ids : List AccountId} {s : Selection}
    (hs : net.Offers ids s) (now : Time) (events : List Use.Event) :
    let handouts := (Use.begin net now s).handouts events
    let current := ((Use.begin net now s).run events).selection
    handouts.map Handout.account =
        (List.range (current.wraps + 1)).flatMap (fun r => pass r handouts) ∧
      (∀ r < current.wraps, (covered s.accounts.length r handouts).Perm s.accounts ∧
        ((pass r handouts).Perm s.accounts ↔ r = 0 ∨ s.accounts.length = 1)) ∧
      (current.exhausted = true ↔
        (covered s.accounts.length current.wraps handouts).Perm s.accounts) ∧
      (current.exhausted = true →
        ((∀ id ∈ s.accounts, id ∈ pass current.wraps handouts) ↔
          current.wraps = 0 ∨ s.accounts.length = 1)) ∧
      (current.wraps < UInt32.size → current.rounds = current.wraps) := by
  intro handouts current
  obtain ⟨htried, hlast⟩ := hs.unused
  have hpasses : current.Passes handouts := Use.passes_run net now events htried hlast hs.wraps
  have hstands : current.Stands (handouts.map Handout.account) :=
    Use.stands_run net now events htried hlast
  have haccounts : current.accounts = s.accounts := (Use.chosen_begin_run net now events).accounts
  rw [← haccounts]
  refine ⟨hpasses.inOrder, fun r hr => ⟨hpasses.complete r hr, ?_⟩, hpasses.exhausted_iff hstands,
    fun hexhausted => ?_, Nat.mod_eq_of_lt⟩
  · -- A pass before the current one is complete, so only the account carried into it can be
    -- missing.
    have hiff := hpasses.pass_covers_iff (Nat.le_of_lt hr) (hpasses.complete r hr)
    refine ⟨fun hperm => hiff.1 fun id hid => hperm.mem_iff.2 hid, fun hnone => ?_⟩
    have hperm := hpasses.complete r hr
    rwa [covered, carried_eq_nil hnone, List.nil_append] at hperm
  · exact hpasses.pass_covers_iff (Nat.le_refl _) ((hpasses.exhausted_iff hstands).1 hexhausted)

/-- Three nodes of the test network. -/
def threeNodes : List AccountId := [⟨0, 0, 3⟩, ⟨0, 0, 4⟩, ⟨0, 0, 5⟩]

/-- A selection over the three nodes. -/
def threeNodeSelection : Selection :=
  .ofNodes [⟨⟨0, 0, 3⟩, "0.testnet.hedera.com:50211"⟩, ⟨⟨0, 0, 4⟩, "1.testnet.hedera.com:50211"⟩,
    ⟨⟨0, 0, 5⟩, "2.testnet.hedera.com:50211"⟩] (by simp)

/-- The test network accepts the three accounts. -/
theorem threeNodes_offered : Network.testnet.Offers threeNodes threeNodeSelection :=
  .given rfl

/-- The first node has failed before the first call, and answers after the third. -/
def unsettled : List Use.Event :=
  [.change (.failed ⟨0, 0, 3⟩), .choose, .choose, .choose, .change (.answered ⟨0, 0, 3⟩), .choose,
    .choose, .choose]

/-- The second pass hands out the two nodes that the first did not end with. -/
theorem passes_cover_all_but_carried_unsettled :
    Network.testnet.Offers threeNodes threeNodeSelection ∧
      (let handouts := (Use.begin .testnet 0 threeNodeSelection).handouts unsettled
      handouts = [⟨⟨0, 0, 4⟩, 0⟩, ⟨⟨0, 0, 5⟩, 0⟩, ⟨⟨0, 0, 3⟩, 0⟩, ⟨⟨0, 0, 4⟩, 1⟩, ⟨⟨0, 0, 5⟩, 1⟩,
          ⟨⟨0, 0, 3⟩, 2⟩] ∧
        (covered threeNodeSelection.accounts.length 1 handouts).Perm threeNodeSelection.accounts ∧
        carried threeNodeSelection.accounts.length 1 handouts = [⟨0, 0, 3⟩]) :=
  ⟨threeNodes_offered, by decide,
    ((passes_cover_all_but_carried threeNodes_offered 0 unsettled).2.1 1 (by decide)).1, by decide⟩

/-- Two nodes of the test network. -/
def twoNodes : List AccountId := [⟨0, 0, 3⟩, ⟨0, 0, 4⟩]

/-- A selection over the two nodes. -/
def twoNodeSelection : Selection :=
  .ofNodes [⟨⟨0, 0, 3⟩, "0.testnet.hedera.com:50211"⟩, ⟨⟨0, 0, 4⟩, "1.testnet.hedera.com:50211"⟩]
    (by simp)

/-- After four calls on two healthy nodes, the second pass is over and has handed out one of them
only, and already after its one call the selection was exhausted. -/
theorem second_pass_skips_carried :
    Network.testnet.Offers twoNodes twoNodeSelection ∧ twoNodes.Nodup ∧
      (let start := Use.begin .testnet 0 twoNodeSelection
      start.handouts [.choose, .choose, .choose, .choose] =
          [⟨⟨0, 0, 3⟩, 0⟩, ⟨⟨0, 0, 4⟩, 0⟩, ⟨⟨0, 0, 3⟩, 1⟩, ⟨⟨0, 0, 4⟩, 2⟩] ∧
        pass 1 (start.handouts [.choose, .choose, .choose, .choose]) = [⟨0, 0, 3⟩] ∧
        (start.run [.choose, .choose, .choose]).selection.exhausted = true ∧
        pass 1 (start.handouts [.choose, .choose, .choose]) = [⟨0, 0, 3⟩]) :=
  ⟨.given rfl, by decide, by decide⟩

/-! ### Windows of calls -/

/-- Accounts that are spread over rounds are all among any `2 * m - 2` that follow each other. -/
theorem Spreads.covers {s : Selection} {ids before window after : List AccountId}
    (h : s.Spreads ids) (hchosen : ∀ id ∈ ids, id ∈ s.accounts) (hm : 2 ≤ s.accounts.length)
    (hsplit : ids = before ++ window ++ after)
    (hlength : window.length = 2 * s.accounts.length - 2) : ∀ id ∈ s.accounts, id ∈ window := by
  -- A round begins every `m - 1` choices, so one does within the first `m - 1` of the window.
  obtain ⟨k, hfirst, hlast⟩ : ∃ k, before.length ≤ k * (s.accounts.length - 1) ∧
      k * (s.accounts.length - 1) ≤ before.length + (s.accounts.length - 2) := by
    refine ⟨(before.length + (s.accounts.length - 2)) / (s.accounts.length - 1), ?_,
      Nat.div_mul_le_self _ _⟩
    have hdivision := Nat.div_add_mod' (before.length + (s.accounts.length - 2))
      (s.accounts.length - 1)
    have hrest := Nat.mod_lt (before.length + (s.accounts.length - 2))
      (show 0 < s.accounts.length - 1 by omega)
    omega
  -- The `m` choices of that round are still in the window.
  have hround : (ids.drop (k * (s.accounts.length - 1))).take s.accounts.length =
      (window.drop (k * (s.accounts.length - 1) - before.length)).take s.accounts.length := by
    have hnone : before.drop (k * (s.accounts.length - 1)) = [] := List.drop_eq_nil_of_le hfirst
    have hin : k * (s.accounts.length - 1) - before.length ≤ window.length := by omega
    rw [hsplit, List.append_assoc, List.drop_append, hnone, List.nil_append,
      List.drop_append_of_le_length hin, List.take_append_of_le_length]
    rw [List.length_drop]
    omega
  have hnodup := h.rounds k
  have hall : ∀ id ∈ (ids.drop (k * (s.accounts.length - 1))).take s.accounts.length,
      id ∈ s.accounts := fun id hid =>
    hchosen id (List.mem_of_mem_drop (List.mem_of_mem_take hid))
  -- All of these choices are different accounts of the selection, and there are as many as
  -- accounts.
  rw [hround] at hnodup hall
  have hfull : s.accounts.length ≤ ((window.drop
      (k * (s.accounts.length - 1) - before.length)).take s.accounts.length).length := by
    rw [List.length_take, List.length_drop]
    omega
  intro id hid
  have hperm := (List.subperm_of_subset hnodup hall).perm_of_length_le hfull
  exact List.mem_of_mem_drop (List.mem_of_mem_take (hperm.mem_iff.2 hid))

/-- For every selection that a network offers over `m` accounts, of which there are two at least,
whatever nodes fail or answer between two calls, and however time passes: any `2 * m - 2` calls that
follow each other hand out every account. -/
theorem no_candidate_starves {net : Network} {ids : List AccountId} {s : Selection}
    (hs : net.Offers ids s) (hm : 2 ≤ s.accounts.length) (now : Time) (events : List Use.Event)
    (before window after : List AccountId)
    (hsplit : ((Use.begin net now s).handouts events).map Handout.account =
      before ++ window ++ after)
    (hlength : window.length = 2 * s.accounts.length - 2) : ∀ id ∈ ids, id ∈ window := by
  obtain ⟨htried, hlast⟩ := hs.unused
  have hchosen := Use.chosen_begin_run (s := s) net now events
  have hspreads := (hchosen.takesTurns htried hlast).spreads
  rw [Use.map_account_choices_run] at hspreads
  have hmem := (Use.stands_run (s := s) net now events htried hlast).chosen
  rw [hchosen.accounts] at hmem
  intro id hid
  exact hspreads.covers hmem hm hsplit hlength id ((hs.mem_accounts id).2 hid)

/-- In the middle of the calls above, four that follow each other hand out all three nodes. -/
theorem no_candidate_starves_unsettled :
    Network.testnet.Offers threeNodes threeNodeSelection ∧
      2 ≤ threeNodeSelection.accounts.length ∧
      ((Use.begin .testnet 0 threeNodeSelection).handouts unsettled).map Handout.account =
        [⟨0, 0, 4⟩] ++ [⟨0, 0, 5⟩, ⟨0, 0, 3⟩, ⟨0, 0, 4⟩, ⟨0, 0, 5⟩] ++ [⟨0, 0, 3⟩] ∧
      ∀ id ∈ threeNodes,
        id ∈ ([⟨0, 0, 5⟩, ⟨0, 0, 3⟩, ⟨0, 0, 4⟩, ⟨0, 0, 5⟩] : List AccountId) :=
  ⟨threeNodes_offered, by decide, by decide, no_candidate_starves threeNodes_offered (by decide) 0
    unsettled [⟨0, 0, 4⟩] _ [⟨0, 0, 3⟩] (by decide) (by decide)⟩

end Selection

end LedgerClient
