import LedgerClient.Proofs.Network.Selection
import LedgerClient.Proofs.Splits
import Mathlib.Data.List.Chain
import Mathlib.Data.List.Dedup
import Mathlib.Data.List.Perm.Subperm

/-!
# `LedgerClient.Proofs.Network.Rounds`: candidates take turns

A selection may be over `m` different accounts, however often each of
them is listed. Its choices then go in rounds, the first of `m`
choices and every later one of `m - 1`, since the node that was used
just before a round counts as tried in it. So the rounds overlap in
one choice: number `k` begins with choice `k * (m - 1)`, and the `m`
choices from there on fall on different accounts. `inRound` is this
arithmetic, and nothing in it knows how a selection keeps track.

* `Selection.Chosen` is every list of choices that a selection can
  make, where the network may be any other one at each choice: whatever
  marks nodes in between, or lets time pass, is covered.
* `Selection.Stands` is the invariant. It ties the accounts that the
  selection holds as tried to those in the round.
* `Selection.TakesTurns` is the law, which `Chosen.takesTurns` proves.
* `Selection.Use` is a selection in use while the nodes of its network
  are marked and time passes, and `Use.chosen_run` makes its choices
  such a list.
-/

set_option autoImplicit false

namespace LedgerClient

/-! ### A network in use -/

/-- A network as it is at a time. -/
structure Network.Moment where
  network : Network
  now : Time

/-- What happens to a network: a node fails or answers, for whichever request, or time passes. -/
inductive Network.Change where
  | failed (id : AccountId)
  | answered (id : AccountId)
  | passed (time : Duration)

namespace Network.Moment

/-- Whether an account is healthy at that moment. -/
def isHealthy (m : Moment) (id : AccountId) : Bool := m.network.isHealthy m.now id

/-- The moment after a change. -/
def change (m : Moment) : Change → Moment
  | .failed id => { m with network := m.network.markUnhealthy m.now id }
  | .answered id => { m with network := m.network.markHealthy id }
  | .passed time => { m with now := m.now + time }

end Network.Moment

/-- A node that was chosen, and the moment of the choice. -/
structure Choice where
  node : Node
  moment : Network.Moment

/-- The account of the node that was chosen. -/
def Choice.account (c : Choice) : AccountId := c.node.accountId

namespace Selection

/-! ### Rounds, counted by choices -/

/-- The accounts that count as tried after some choices among `m`: those of the round that the
next choice belongs to, and the one that was used just before that round. -/
def inRound (m : Nat) (ids : List AccountId) : List AccountId :=
  ids.drop ((ids.length - 1) / (m - 1) * (m - 1))

/-- A choice belongs to round `k` if it is one of the `m - 1` that follow choice `k * (m - 1)`. -/
theorem inRound_eq {m k : Nat} {ids : List AccountId} (hm : 2 ≤ m)
    (hfirst : k * (m - 1) ≤ ids.length - 1) (hlast : ids.length < k * (m - 1) + m) :
    inRound m ids = ids.drop (k * (m - 1)) := by
  -- The last choice lies between the beginnings of two rounds, which is what division finds.
  have hnext : ids.length - 1 < (k + 1) * (m - 1) := by
    rw [Nat.add_mul, Nat.one_mul]
    omega
  rw [inRound, Nat.div_eq_of_lt_le hfirst hnext]

/-- Every choice from the beginning of the round on counts as tried. -/
theorem getElem_mem_inRound {m i : Nat} {ids : List AccountId} (hi : i < ids.length)
    (hround : (ids.length - 1) / (m - 1) * (m - 1) ≤ i) : ids[i] ∈ inRound m ids := by
  rw [inRound, List.mem_drop_iff_getElem]
  exact ⟨i - (ids.length - 1) / (m - 1) * (m - 1), by omega, by congr 1; omega⟩

/-- The choice just before counts as tried. -/
theorem mem_inRound_concat (m : Nat) (ids : List AccountId) (id : AccountId) :
    id ∈ inRound m (ids ++ [id]) := by
  have hlength : (ids ++ [id]).length - 1 = ids.length := by simp
  rw [inRound, hlength, List.drop_append_of_le_length (Nat.div_mul_le_self _ _)]
  exact List.mem_append_right _ List.mem_cons_self

/-- Choices that never fall on an account in the round fall on different accounts from choice
`k * (m - 1)` on for `m` choices. -/
theorem nodup_round {m : Nat} {ids : List AccountId} (hm : 2 ≤ m)
    (hnew : ∀ before id after, ids = before ++ id :: after → id ∉ inRound m before) (k : Nat) :
    ((ids.drop (k * (m - 1))).take m).Nodup := by
  -- Were two choices of the round the same, the later one would have been of a tried account.
  rw [List.nodup_iff_pairwise_ne, List.pairwise_iff_getElem]
  intro i j hi hj hij heq
  simp only [List.length_take, List.length_drop] at hi hj
  simp only [List.getElem_take, List.getElem_drop] at heq
  have hj' : k * (m - 1) + j < ids.length := by omega
  have hbefore : (ids.take (k * (m - 1) + j)).length = k * (m - 1) + j :=
    List.length_take_of_le (Nat.le_of_lt hj')
  -- The later of the two was made in round `k` or before, so the earlier one counted as tried.
  have hround : (k * (m - 1) + j - 1) / (m - 1) * (m - 1) ≤ k * (m - 1) := by
    refine Nat.mul_le_mul_right _ (Nat.lt_succ_iff.1 ((Nat.div_lt_iff_lt_mul (by omega)).2 ?_))
    rw [Nat.succ_mul]
    omega
  have hi' : k * (m - 1) + i < (ids.take (k * (m - 1) + j)).length := by omega
  have htried : (ids.take (k * (m - 1) + j))[k * (m - 1) + i] ∈
      inRound m (ids.take (k * (m - 1) + j)) :=
    getElem_mem_inRound hi' (by rw [hbefore]; omega)
  rw [List.getElem_take, heq] at htried
  refine hnew _ _ (ids.drop (k * (m - 1) + j + 1)) ?_ htried
  rw [← List.drop_eq_getElem_cons hj', List.take_append_drop]

/-! ### One choice -/

variable (s : Selection) (healthy : AccountId → Bool)

/-- The accounts of the candidates, each once. -/
def accounts : List AccountId := (s.candidates.map Node.accountId).dedup

/-- The selection as it stands at the next choice: in a new round if all have been tried. -/
def opened : Selection := if s.exhausted then s.newRound else s

/-- The accounts of a selection are those of its candidates. -/
theorem mem_accounts {id : AccountId} :
    id ∈ s.accounts ↔ ∃ node ∈ s.candidates, node.accountId = id := by
  rw [accounts, List.mem_dedup, List.mem_map]

/-- A round is over if every account has been tried. -/
theorem exhausted_iff : s.exhausted = true ↔ ∀ id ∈ s.accounts, id ∈ s.tried := by
  simp only [exhausted, List.all_eq_true, decide_eq_true_eq, mem_accounts, forall_exists_index,
    and_imp, forall_apply_eq_imp_iff₂]

/-- There are at most as many accounts as entries in the list. -/
theorem length_accounts_le : s.accounts.length ≤ s.candidates.length := by
  have h := (List.dedup_sublist (s.candidates.map Node.accountId)).length_le
  rwa [List.length_map] at h

/-- As long as a candidate is left in the round, the choice falls on one of these. -/
theorem choice_notMem_tried (h : s.exhausted = false) :
    (s.choice healthy).accountId ∉ s.tried := by
  have huntried {node : Node} (hmem : node ∈ s.untried) : node.accountId ∉ s.tried := by
    simpa using (List.mem_filter.1 hmem).2
  unfold choice
  split
  · exact huntried (List.mem_of_find?_eq_some ‹_›)
  · cases hu : s.untried with
    | cons node rest => exact huntried (by simp [hu])
    | nil =>
      -- With nobody left, all would have been tried.
      rw [untried, List.filter_eq_nil_iff] at hu
      simp only [decide_eq_true_eq, Decidable.not_not] at hu
      have hall : s.exhausted = true := by simpa [exhausted] using hu
      rw [h] at hall
      cases hall

/-- An unhealthy node is only chosen if nobody who is left in the round is healthy. -/
theorem unhealthy_of_choice (h : healthy (s.choice healthy).accountId = false) {node : Node}
    (hnode : node ∈ s.candidates) (hleft : node.accountId ∉ s.tried) :
    healthy node.accountId = false := by
  unfold choice at h
  split at h
  next found hfound =>
    have hhealthy := List.find?_some hfound
    rw [h] at hhealthy
    cases hhealthy
  next hnone =>
    rw [List.find?_eq_none] at hnone
    simpa using hnone node (List.mem_filter.2 ⟨hnode, by simpa using hleft⟩)

/-- Opening a round leaves the candidates as they are. -/
theorem opened_candidates : s.opened.candidates = s.candidates := by
  unfold opened newRound
  split <;> rfl

/-- It leaves the node that was chosen last as it is, too. -/
theorem opened_last : s.opened.last = s.last := by
  unfold opened newRound
  split <;> rfl

/-- A choice is tried in the round that it opens or goes on with. -/
theorem next_tried : (s.next healthy).2.tried = (s.next healthy).1.accountId :: s.opened.tried :=
  rfl

/-- A choice is the last one from then on. -/
theorem next_last : (s.next healthy).2.last = some (s.next healthy).1.accountId := rfl

/-! ### Where a selection stands -/

/-- Where a selection stands after some choices: it knows the last one, it holds nothing as tried
that was not chosen, and with two accounts or more what it holds as tried are the choices from the
beginning of a round on, which are all different. -/
structure Stands (ids : List AccountId) : Prop where
  chosen : ∀ id ∈ ids, id ∈ s.accounts
  last : s.last = ids.getLast?
  tried : ∀ id ∈ s.tried, id ∈ ids
  round : 2 ≤ s.accounts.length → ∃ k, k * (s.accounts.length - 1) ≤ ids.length - 1 ∧
    (∀ id, id ∈ s.tried ↔ id ∈ ids.drop (k * (s.accounts.length - 1))) ∧
    (ids.drop (k * (s.accounts.length - 1))).Nodup

variable {s} {ids : List AccountId}

/-- Opening a round leaves the accounts as they are. -/
theorem opened_accounts : s.opened.accounts = s.accounts := by
  rw [accounts, opened_candidates, accounts]

/-- So does a choice. -/
theorem next_accounts (healthy : AccountId → Bool) :
    (s.next healthy).2.accounts = s.accounts := by
  rw [accounts, next_candidates, accounts]

/-- When all have been tried, only the last one is held as tried in the next round. -/
theorem opened_tried_of_exhausted (hm : 2 ≤ s.accounts.length) (hexhausted : s.exhausted = true) :
    s.opened.tried = s.last.toList := by
  have hcandidates : 1 < s.candidates.length := by
    have := s.length_accounts_le
    omega
  cases hlast : s.last <;> simp [opened, newRound, hexhausted, hlast, hcandidates]

/-- A round is not longer than there are accounts. -/
theorem Stands.length_le (h : s.Stands ids) {first : Nat} (hnodup : (ids.drop first).Nodup) :
    (ids.drop first).length ≤ s.accounts.length :=
  (List.subperm_of_subset hnodup fun id hid => h.chosen id (List.mem_of_mem_drop hid)).length_le

/-- All accounts have been tried in a round exactly when it is as long as there are accounts. -/
theorem Stands.exhausted_iff_length (h : s.Stands ids) {first : Nat}
    (htried : ∀ id, id ∈ s.tried ↔ id ∈ ids.drop first) (hnodup : (ids.drop first).Nodup) :
    s.exhausted = true ↔ (ids.drop first).length = s.accounts.length := by
  rw [exhausted_iff]
  constructor
  · -- The round has no account twice, so it can be compared with the accounts by length alone.
    intro hall
    refine Nat.le_antisymm (h.length_le hnodup) ?_
    refine (List.subperm_of_subset (List.nodup_dedup _) fun id hid => ?_).length_le
    exact (htried id).1 (hall id hid)
  · intro hlength id hid
    have hsub : (ids.drop first).Subperm s.accounts :=
      List.subperm_of_subset hnodup fun id hid => h.chosen id (List.mem_of_mem_drop hid)
    exact (htried id).2 ((hsub.perm_of_length_le (Nat.le_of_eq hlength.symm)).mem_iff.2 hid)

/-- A new round holds as tried at most the node that was used last. -/
theorem Stands.opened_tried (h : s.Stands ids) : ∀ id ∈ s.opened.tried, id ∈ ids := by
  intro id hid
  unfold opened newRound at hid
  split at hid
  · -- A round that is over leaves the last account, unless it is the only one.
    cases hlast : s.last with
    | none => simp [hlast] at hid
    | some last =>
      have hmem : last ∈ ids := List.mem_of_getLast? (h.last ▸ hlast)
      simp only [hlast] at hid
      split at hid
      · exact List.mem_singleton.1 hid ▸ hmem
      · cases hid
  · exact h.tried id hid

/-- When all have been tried, a new round begins with the node that was used last. -/
theorem Stands.opened_of_exhausted (h : s.Stands ids) (hm : 2 ≤ s.accounts.length)
    (hexhausted : s.exhausted = true) :
    ∃ k before last, ids = before ++ [last] ∧ before.length = k * (s.accounts.length - 1) ∧
      s.opened.tried = [last] := by
  obtain ⟨k, hfirst, htried, hnodup⟩ := h.round hm
  have hlength := (h.exhausted_iff_length htried hnodup).1 hexhausted
  rw [List.length_drop] at hlength
  have hne : ids ≠ [] := by
    intro hnil
    rw [hnil, List.length_nil] at hlength
    omega
  -- The last choice ends round `k`, and round `k + 1` begins with it.
  obtain ⟨before, last, rfl⟩ := (List.eq_nil_or_concat' ids).resolve_left hne
  rw [List.length_append, List.length_singleton] at hlength
  refine ⟨k + 1, before, last, rfl, ?_, ?_⟩
  · rw [Nat.succ_mul]
    omega
  · have hlast : s.last = some last := by simpa using h.last
    rw [opened_tried_of_exhausted hm hexhausted, hlast]
    rfl

/-- Opening a round does not change what was chosen. -/
theorem Stands.opened (h : s.Stands ids) : s.opened.Stands ids := by
  cases hexhausted : s.exhausted with
  | false => simpa [Selection.opened, hexhausted] using h
  | true =>
    -- The new round has the last choice in it and nothing else, and begins there.
    refine ⟨?_, by rw [opened_last, h.last], h.opened_tried, ?_⟩
    · rw [opened_accounts]
      exact h.chosen
    · rw [opened_accounts]
      intro hm
      obtain ⟨k, before, last, rfl, hlength, htried⟩ := h.opened_of_exhausted hm hexhausted
      refine ⟨k, ?_⟩
      rw [← hlength, htried, List.drop_left, List.length_append]
      exact ⟨Nat.le_refl _, fun _ => Iff.rfl, List.nodup_singleton last⟩

/-- With two accounts or more, one is left to choose in a round that is open. -/
theorem Stands.opened_exhausted (h : s.Stands ids) (hm : 2 ≤ s.accounts.length) :
    s.opened.exhausted = false := by
  cases hexhausted : s.exhausted with
  | false => simp [Selection.opened, hexhausted]
  | true =>
    obtain ⟨k, before, last, -, -, htried⟩ := h.opened_of_exhausted hm hexhausted
    rw [Bool.eq_false_iff, Ne, exhausted_iff, htried, opened_accounts]
    intro hall
    -- All accounts would be the last one, but they are different.
    have hle := (List.subperm_of_subset (List.nodup_dedup _) hall).length_le
    rw [List.length_singleton] at hle
    exact absurd hm (by unfold accounts; omega)

/-- In an open round, the accounts held as tried are those in the round. -/
theorem Stands.mem_opened_tried (h : s.Stands ids) (hm : 2 ≤ s.accounts.length) (id : AccountId) :
    id ∈ s.opened.tried ↔ id ∈ inRound s.accounts.length ids := by
  have hopened := h.opened
  obtain ⟨k, hfirst, htried, hnodup⟩ := hopened.round (by rwa [opened_accounts])
  have hle := hopened.length_le hnodup
  -- Were the round full, it would not be open; so its beginning is the one that counting gives.
  have hleft :
      (ids.drop (k * (s.opened.accounts.length - 1))).length ≠ s.opened.accounts.length := by
    rw [Ne, ← hopened.exhausted_iff_length htried hnodup, h.opened_exhausted hm]
    simp
  rw [opened_accounts] at hfirst htried hle hleft
  rw [List.length_drop] at hle hleft
  rw [htried, inRound_eq hm hfirst (by omega)]

/-- Whatever is held as tried counts as tried. With one account, all choices do. -/
theorem Stands.mem_inRound (h : s.Stands ids) {id : AccountId} (hid : id ∈ s.opened.tried) :
    id ∈ inRound s.accounts.length ids := by
  by_cases hm : 2 ≤ s.accounts.length
  · exact (h.mem_opened_tried hm id).1 hid
  · have hzero : s.accounts.length - 1 = 0 := by omega
    rw [inRound, hzero, Nat.mul_zero, List.drop_zero]
    exact h.opened_tried id hid

/-- A choice is one of the accounts, and with two or more it is not in the round. -/
theorem Stands.next_account (h : s.Stands ids) (healthy : AccountId → Bool) :
    (s.next healthy).1.accountId ∈ s.accounts ∧ (2 ≤ s.accounts.length →
      (s.next healthy).1.accountId ∉ inRound s.accounts.length ids) := by
  refine ⟨s.mem_accounts.2 ⟨_, s.next_mem healthy, rfl⟩, fun hm => ?_⟩
  rw [← h.mem_opened_tried hm]
  exact s.opened.choice_notMem_tried healthy (h.opened_exhausted hm)

/-- Where a selection stands after one more choice. -/
theorem Stands.next (h : s.Stands ids) (healthy : AccountId → Bool) :
    (s.next healthy).2.Stands (ids ++ [(s.next healthy).1.accountId]) := by
  have haccounts : (s.next healthy).2.accounts = s.accounts := next_accounts healthy
  obtain ⟨hmem, hnew⟩ := h.next_account healthy
  refine ⟨?_, ?_, ?_, ?_⟩
  · -- A choice is a candidate, it is the last one, and everything tried was chosen at some time.
    rw [haccounts]
    intro id hid
    rcases List.mem_append.1 hid with hid | hid
    · exact h.chosen id hid
    · exact List.mem_singleton.1 hid ▸ hmem
  · rw [next_last, List.getLast?_concat]
  · rw [next_tried]
    intro id hid
    rcases List.mem_cons.1 hid with rfl | hid
    · exact List.mem_append_right _ List.mem_cons_self
    · exact List.mem_append_left _ (h.opened_tried id hid)
  · rw [haccounts, next_tried]
    intro hm
    -- With two accounts or more, the choice is not among those held as tried.
    have hleft := s.opened.choice_notMem_tried healthy (h.opened_exhausted hm)
    obtain ⟨k, hfirst, htried, hnodup⟩ := h.opened.round (by rwa [opened_accounts])
    rw [opened_accounts] at hfirst htried hnodup
    -- The choice goes to the end of the round, where it is new.
    have hround : (ids ++ [(s.next healthy).1.accountId]).drop (k * (s.accounts.length - 1)) =
        ids.drop (k * (s.accounts.length - 1)) ++ [(s.next healthy).1.accountId] :=
      List.drop_append_of_le_length (by omega)
    refine ⟨k, ?_, fun id => ?_, ?_⟩
    · rw [List.length_append, List.length_singleton]
      omega
    · rw [hround, List.mem_cons, List.mem_append, List.mem_singleton, htried]
      exact Or.comm
    · rw [hround, List.nodup_append]
      refine ⟨hnodup, List.nodup_singleton _, fun id hid other hother heq => ?_⟩
      rw [List.mem_singleton] at hother
      exact hleft ((htried _).2 (hother ▸ heq ▸ hid))

/-- A selection that has chosen nothing stands at the beginning. -/
theorem stands_nil (htried : s.tried = []) (hlast : s.last = none) : s.Stands [] :=
  ⟨nofun, hlast, by simp [htried], fun _ => ⟨0, by simp [htried]⟩⟩

/-! ### All that a selection can choose -/

/-- The choices that a selection has made, one after the other, at any moments. -/
inductive Chosen (start : Selection) : List Choice → Selection → Prop
  | nil : Chosen start [] start
  | next {choices : List Choice} {s : Selection} (chosen : Chosen start choices s)
      (moment : Network.Moment) :
      Chosen start (choices ++ [⟨(s.next moment.isHealthy).1, moment⟩]) (s.next moment.isHealthy).2

/-- The law of the choices that a selection makes. They are candidates, and in no round is an
account chosen twice, so that any `m` choices that begin with a round fall on all `m` of them. A
node is only chosen unhealthy if every candidate that does not count as tried is unhealthy. -/
structure TakesTurns (s : Selection) (choices : List Choice) : Prop where
  candidate : ∀ c ∈ choices, c.node ∈ s.candidates
  fresh : 2 ≤ s.accounts.length → ∀ before c after, choices = before ++ c :: after →
    c.account ∉ inRound s.accounts.length (before.map Choice.account)
  unhealthy : ∀ before c after, choices = before ++ c :: after →
    c.moment.isHealthy c.account = false →
    ∀ node ∈ s.candidates,
      node.accountId ∉ inRound s.accounts.length (before.map Choice.account) →
      c.moment.isHealthy node.accountId = false

section
variable {start : Selection} {choices : List Choice}

/-- Whatever is chosen, the candidates stay. -/
theorem Chosen.candidates (h : start.Chosen choices s) : s.candidates = start.candidates := by
  induction h with
  | nil => rfl
  | next _ _ ih => rw [next_candidates, ih]

/-- So do their accounts. -/
theorem Chosen.accounts (h : start.Chosen choices s) : s.accounts = start.accounts := by
  rw [Selection.accounts, h.candidates, Selection.accounts]

/-- Where a selection stands after its choices. -/
theorem Chosen.stands (htried : start.tried = []) (hlast : start.last = none)
    (h : start.Chosen choices s) : s.Stands (choices.map Choice.account) := by
  induction h with
  | nil => exact stands_nil htried hlast
  | next _ moment ih =>
    rw [List.map_append]
    exact ih.next moment.isHealthy

/-- Every choice was made by the selection as the choices before it left it. -/
theorem Chosen.split (h : start.Chosen choices s) :
    ∀ before c after, choices = before ++ c :: after →
      ∃ t, start.Chosen before t ∧ c.node = (t.next c.moment.isHealthy).1 := by
  induction h with
  | nil => simp
  | @next choices s chosen moment ih => exact forall_splits_concat ih ⟨s, chosen, rfl⟩

/-- Whatever happens to the network, a selection that begins keeps the law. -/
theorem Chosen.takesTurns (htried : start.tried = []) (hlast : start.last = none)
    (h : start.Chosen choices s) : start.TakesTurns choices where
  candidate := by
    intro c hc
    -- Each choice was made by the selection as it stood then, which knows the law.
    obtain ⟨before, after, hsplit⟩ := List.append_of_mem hc
    obtain ⟨t, ht, hnode⟩ := h.split before c after hsplit
    rw [hnode, ← ht.candidates]
    exact t.next_mem _
  fresh := by
    intro hm before c after hsplit
    obtain ⟨t, ht, hnode⟩ := h.split before c after hsplit
    rw [← ht.accounts] at hm ⊢
    rw [Choice.account, hnode]
    exact ((ht.stands htried hlast).next_account c.moment.isHealthy).2 hm
  unhealthy := by
    intro before c after hsplit hunhealthy node hmem hround
    obtain ⟨t, ht, hnode⟩ := h.split before c after hsplit
    rw [Choice.account, hnode] at hunhealthy
    rw [← ht.candidates, ← t.opened_candidates] at hmem
    -- What the selection held as tried at that choice counts as tried.
    refine t.opened.unhealthy_of_choice c.moment.isHealthy hunhealthy hmem fun htried' => hround ?_
    rw [← ht.accounts]
    exact (ht.stands htried hlast).mem_inRound htried'

/-- What the law says of the accounts alone: the first `m` choices fall on different accounts, and
so do any `m` choices that begin with a round, and with two accounts or more none is chosen twice in
a row. -/
structure Spreads (s : Selection) (ids : List AccountId) : Prop where
  first : (ids.take s.accounts.length).Nodup
  rounds : ∀ k, ((ids.drop (k * (s.accounts.length - 1))).take s.accounts.length).Nodup
  apart : 2 ≤ s.accounts.length → ids.IsChain (· ≠ ·)

/-- Choices that take turns are spread over the accounts, round by round. -/
theorem TakesTurns.spreads (h : s.TakesTurns choices) : s.Spreads (choices.map Choice.account) := by
  -- The choices are those of the accounts, so a cut of these is one of the choices.
  have hnew (hm : 2 ≤ s.accounts.length) (before : List AccountId) (id : AccountId)
      (after : List AccountId) (hsplit : choices.map Choice.account = before ++ id :: after) :
      id ∉ inRound s.accounts.length before := by
    obtain ⟨xs, ys, rfl, rfl, hys⟩ := List.map_eq_append_iff.1 hsplit
    obtain ⟨c, zs, rfl, rfl, -⟩ := List.map_eq_cons_iff.1 hys
    exact h.fresh hm xs c zs rfl
  have hrounds (k : Nat) :
      (((choices.map Choice.account).drop (k * (s.accounts.length - 1))).take
        s.accounts.length).Nodup := by
    by_cases hm : 2 ≤ s.accounts.length
    · exact nodup_round hm (hnew hm) k
    · -- A single choice repeats nothing.
      refine List.nodup_iff_sublist.2 fun id hsub => ?_
      have hle := hsub.length_le
      rw [List.length_take] at hle
      exact absurd hle (by simp; omega)
  refine ⟨?_, hrounds, fun hm => ?_⟩
  · simpa using hrounds 0
  · -- Two in a row are in one round, since a round begins with the last choice of the one before.
    rw [List.isChain_iff_forall_rel_of_append_cons_cons]
    intro id id' before after hsplit heq
    have hfresh := hnew hm (before ++ [id]) id' after (by simpa using hsplit)
    exact hfresh (heq ▸ mem_inRound_concat _ before id)

end

/-! ### A selection in use -/

/-- A selection in use: the moment, what is left to choose, and the choices so far. -/
structure Use where
  moment : Network.Moment
  selection : Selection
  choices : List Choice

namespace Use

/-- What happens while a selection is in use: it makes its next choice, or the network changes. -/
inductive Event where
  | choose
  | change (c : Network.Change)

/-- The beginning, with nothing chosen yet. -/
def begin (network : Network) (now : Time) (s : Selection) : Use := ⟨⟨network, now⟩, s, []⟩

/-- A selection in use after an event. -/
def step (u : Use) : Event → Use
  | .choose =>
    let (node, selection) := u.selection.next u.moment.isHealthy
    { u with selection := selection, choices := u.choices ++ [⟨node, u.moment⟩] }
  | .change c => { u with moment := u.moment.change c }

/-- A selection in use after some events. -/
def run (u : Use) (events : List Event) : Use := events.foldl step u

variable {start : Selection} {u : Use}

/-- Whatever changes, only a choice adds to the choices. -/
theorem chosen_step (h : start.Chosen u.choices u.selection) (e : Event) :
    start.Chosen (u.step e).choices (u.step e).selection := by
  cases e with
  | choose => exact h.next u.moment
  | change c => exact h

/-- All choices of a run are made by the selection it began with. -/
theorem chosen_run (h : start.Chosen u.choices u.selection) (events : List Event) :
    start.Chosen (u.run events).choices (u.run events).selection := by
  induction events generalizing u with
  | nil => exact h
  | cons e events ih => exact ih (chosen_step h e)

end Use

end Selection

namespace Network

/-- The selections that a network offers, and the accounts that they are over: those of the nodes
that the cursor offers, or some that were asked for. -/
inductive Offers (net : Network) : List AccountId → Selection → Prop
  | all {ids : List AccountId} (offered : ∀ id, id ∈ ids ↔ id ∈ net.turn.map Node.accountId) :
      Offers net ids net.selection.1
  | given {ids : List AccountId} {s : Selection} (accepted : net.selectionFor ids = .ok s) :
      Offers net ids s

variable {net : Network} {ids : List AccountId} {s : Selection}

/-- If there is room from the cursor on, the network's own selection is over all of its accounts. -/
theorem offers_all (h : net.HasRoom) : net.Offers net.ids net.selection.1 := by
  refine .all ?_
  intro id
  exact ((turn_perm h).map Node.accountId).mem_iff.symm

/-- A selection that a network offers has not chosen yet. -/
theorem Offers.unused (h : net.Offers ids s) : s.tried = [] ∧ s.last = none := by
  cases h with
  | all offered => exact ⟨rfl, rfl⟩
  | given accepted =>
    obtain ⟨-, -, htried, hlast, -⟩ := selectionFor_eq_ok accepted
    exact ⟨htried, hlast⟩

/-- The accounts of a selection are those that it is over. -/
theorem Offers.mem_accounts (h : net.Offers ids s) (id : AccountId) :
    id ∈ s.accounts ↔ id ∈ ids := by
  cases h with
  | all offered =>
    rw [offered]
    exact List.mem_dedup
  | given accepted =>
    rw [Selection.accounts, (selectionFor_eq_ok accepted).2.1, List.mem_dedup]

end Network

end LedgerClient
