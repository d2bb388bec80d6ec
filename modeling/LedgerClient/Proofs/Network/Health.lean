import LedgerClient.Proofs.Network.Rounds
import Mathlib.Algebra.GroupWithZero.Nat
import Mathlib.Data.List.Induction

/-!
# `LedgerClient.Proofs.Network.Health`: what a history of faults leaves

A node's record is a count and an instant. Both are a function of what
has happened to the node, and this module states the function without
looking at any record: `Network.faults` is how often an account failed
since it last answered, and it sits out `Network.sitOut` from the time
of its latest failure on.

* `Network.Remembers` ties the record of an account to the history. A
  step of the history keeps it (`Remembers.step`), so every history does
  (`remembers_run`).
* `Network.sitOut` is exact arithmetic. The doubling stops with a factor
  of 32 bits, and `sitOut_eq_checked` says that it makes no difference
  where a product without room is given up for the maximum.

What happens to other accounts is not part of the history of one:
`get?_health_change_of_ne` is the step, and `alike_filter` says that
dropping all of it leaves the same answers.
-/

set_option autoImplicit false

namespace LedgerClient.Network

deriving instance DecidableEq for Change

/-- A count that was cut before is cut at the same place. -/
theorem min_succ_min (count cap : Nat) :
    Nat.min (Nat.min count cap + 1) cap = Nat.min (count + 1) cap := by
  show min (min count cap + 1) cap = min (count + 1) cap
  omega

/-- A count that is cut somewhere above zero is zero only if it was. -/
theorem min_eq_zero_iff (count : Nat) {cap : Nat} (hcap : 0 < cap) :
    Nat.min count cap = 0 ↔ count = 0 := by
  show min count cap = 0 ↔ count = 0
  omega

/-! ### One record -/

section
variable (net : Network) (now : Time) (id : AccountId)

/-- The failures of a node are those of its record, and none without a record. -/
theorem failures_eq :
    net.failures id = ((Table.get? id net.health).map Health.failures).getD 0 := by
  unfold failures
  cases Table.get? id net.health <;> rfl

/-- Another failure is counted, as long as there is room for it. -/
theorem failures_markUnhealthy (id' : AccountId) : (net.markUnhealthy now id).failures id' =
    if id' = id then Nat.min (net.failures id + 1) maxFailures else net.failures id' := by
  rw [failures_eq, markUnhealthy]
  by_cases h : id' = id
  · simp [h]
  · simp only [Table.get?_insert_of_ne h, h, if_false, failures_eq]

/-- An answer clears the count. -/
theorem failures_markHealthy (id' : AccountId) : (net.markHealthy id).failures id' =
    if id' = id then 0 else net.failures id' := by
  rw [failures_eq, markHealthy]
  by_cases h : id' = id
  · simp [h]
  · simp only [Table.get?_erase_of_ne h, h, if_false, failures_eq]

end

/-! ### How long a node sits out -/

/-- How long a node sits out after so many failures in a row, where a maximum below the minimum is
raised to it: the minimum, doubled with each failure after the first, up to the maximum. From the
thirty-third failure on the factor stays the largest of 32 bits. -/
def sitOut (min max : Duration) (failures : Nat) : Duration :=
  Nat.min (min * if failures ≤ 32 then 2 ^ (failures - 1) else 2 ^ 32 - 1) (Nat.max max min)

/-- The factor doubles with each failure, up to the thirty-second, and then stays at the largest of
32 bits. -/
theorem factor_eq (failures : Nat) :
    factor failures = if failures ≤ 32 then 2 ^ (failures - 1) else 2 ^ 32 - 1 := by
  rw [factor, Nat.one_shiftLeft]
  rfl

/-- A factor has 32 bits. -/
theorem factor_lt (failures : Nat) : factor failures < 2 ^ 32 := by
  rw [factor_eq]
  by_cases h : failures ≤ 32
  · rw [if_pos h]
    exact Nat.pow_lt_pow_right (by decide) (by omega)
  · rw [if_neg h]
    decide

/-- A network with these times lets a node sit out as long as they say. -/
theorem penalty_eq_sitOut {net : Network} {min max : Duration} (hmin : net.minBackoff = min)
    (hmax : net.maxBackoff = Nat.max max min) (failures : Nat) :
    net.penalty failures = sitOut min max failures := by
  rw [penalty, factor_eq, hmin, hmax, sitOut]

/-- The factor does not shrink with the failures. -/
theorem factor_mono {failures failures' : Nat} (h : failures ≤ failures') :
    factor failures ≤ factor failures' := by
  rw [factor_eq, factor_eq]
  by_cases hlate : failures' ≤ 32
  · rw [if_pos (Nat.le_trans h hlate), if_pos hlate]
    exact Nat.pow_le_pow_right (by decide) (Nat.sub_le_sub_right h 1)
  · -- Past the last doubling the factor is the largest one, and before it at most half as large.
    rw [if_neg hlate]
    by_cases hearly : failures ≤ 32
    · rw [if_pos hearly]
      have hpow : 2 ^ (failures - 1) ≤ 2 ^ 31 := Nat.pow_le_pow_right (by decide) (by omega)
      omega
    · rw [if_neg hearly]

/-- A node does not sit out for less after more failures. -/
theorem sitOut_mono (min max : Duration) {failures failures' : Nat} (h : failures ≤ failures') :
    sitOut min max failures ≤ sitOut min max failures' := by
  have hfactor := factor_mono h
  rw [factor_eq, factor_eq] at hfactor
  exact Nat.le_min.2
    ⟨Nat.le_trans (Nat.min_le_left _ _) (Nat.mul_le_mul_left min hfactor), Nat.min_le_right _ _⟩

/-- Lengths of time have 64 bits for their whole seconds. -/
def durationSize : Nat := UInt64.size * 1000000000

/-- A multiple of a length of time, if there is room for it. -/
def multiple? (length : Duration) (factor : Nat) : Option Duration :=
  if length * factor < durationSize then some (length * factor) else none

/-- A number of milliseconds of 64 bits is a length of time that has room. -/
theorem milliseconds_lt (n : UInt64) : milliseconds n < durationSize :=
  Nat.mul_lt_mul_of_lt_of_le n.toNat_lt_size (by decide) (by decide)

/-- Where the multiple has no room the node sits out for the maximum, which is what it does in
exact arithmetic. -/
theorem sitOut_eq_checked (min max : UInt64) (failures : Nat) :
    sitOut (milliseconds min) (milliseconds max) failures =
      ((multiple? (milliseconds min) (factor failures)).map fun length =>
        Nat.min length (Nat.max (milliseconds max) (milliseconds min))).getD
          (Nat.max (milliseconds max) (milliseconds min)) := by
  have hroom : Nat.max (milliseconds max) (milliseconds min) < durationSize :=
    Nat.max_lt.2 ⟨milliseconds_lt max, milliseconds_lt min⟩
  rw [sitOut, ← factor_eq, multiple?]
  by_cases hfits : milliseconds min * factor failures < durationSize
  · rw [if_pos hfits, Option.map_some, Option.getD_some]
  · rw [if_neg hfits, Option.map_none, Option.getD_none]
    exact Nat.min_eq_right (Nat.le_trans (Nat.le_of_lt hroom) (Nat.le_of_not_lt hfits))

/-! ### Histories -/

/-- How much time passes. -/
def Change.elapsed : Change → Duration
  | .passed time => time
  | _ => 0

/-- Whether a change is about an account, or about no account since only time passes. -/
def Change.concerns (id : AccountId) : Change → Bool
  | .failed id' | .answered id' => id' = id
  | .passed _ => true

/-- The time after some changes. -/
def timeAfter (start : Time) (changes : List Change) : Time :=
  start + (changes.map Change.elapsed).sum

/-- How often an account has failed since it last answered. -/
def faults (id : AccountId) (changes : List Change) : Nat :=
  (changes.reverse.takeWhile (· ≠ .answered id)).count (.failed id)

namespace Moment

/-- The moment after some changes, one after the other. -/
def run (m : Moment) (changes : List Change) : Moment := changes.foldl change m

/-- What happens last happens to the moment that the rest leads to. -/
theorem run_concat (m : Moment) (changes : List Change) (c : Change) :
    m.run (changes ++ [c]) = (m.run changes).change c := by
  rw [run, List.foldl_append]
  rfl

end Moment

section
variable (id : AccountId) (changes : List Change)

/-- The time goes on by what the last change takes. -/
theorem timeAfter_concat (start : Time) (c : Change) :
    timeAfter start (changes ++ [c]) = timeAfter start changes + c.elapsed := by
  simp [timeAfter, Nat.add_assoc]

/-- The count starts over with an answer of the node and goes on with a failure of it. -/
theorem faults_concat (c : Change) : faults id (changes ++ [c]) =
    if c = .answered id then 0 else faults id changes + if c = .failed id then 1 else 0 := by
  by_cases hanswered : c = .answered id
  · simp [faults, hanswered]
  · by_cases hfailed : c = .failed id
    · simp [faults, hfailed]
    · simp [faults, hanswered, hfailed]

end

/-- The last of some changes by which an account failed: those before it and those after. -/
structure LastFault (id : AccountId) (changes before after : List Change) : Prop where
  split : changes = before ++ .failed id :: after
  last : .failed id ∉ after

section
variable {id : AccountId} {changes before after : List Change}

/-- Whatever else happens, the last fault is the same. -/
theorem LastFault.concat (h : LastFault id changes before after) {c : Change}
    (hc : c ≠ .failed id) : LastFault id (changes ++ [c]) before (after ++ [c]) where
  split := by rw [h.split, List.append_assoc, List.cons_append]
  last := by
    rw [List.mem_append, List.mem_singleton]
    rintro (hmem | heq)
    · exact h.last hmem
    · exact hc heq.symm

/-- Another fault is the last one. -/
theorem lastFault_concat_self : LastFault id (changes ++ [.failed id]) changes [] :=
  ⟨rfl, List.not_mem_nil⟩

/-- Only one fault is the last. -/
theorem LastFault.unique {before' after' : List Change} (h : LastFault id changes before after)
    (h' : LastFault id changes before' after') : before = before' := by
  have hsplit := h.split.symm.trans h'.split
  -- One beginning is part of the other; were it shorter, the fault in between would come too late.
  rcases List.append_eq_append_iff.1 hsplit with
    ⟨between, hbefore, hafter⟩ | ⟨between, hbefore, hafter⟩
  · cases between with
    | nil => simpa using hbefore.symm
    | cons c rest =>
      rw [List.cons_append, List.cons.injEq] at hafter
      exact absurd (hafter.2 ▸ by simp) h.last
  · cases between with
    | nil => simpa using hbefore
    | cons c rest =>
      rw [List.cons_append, List.cons.injEq] at hafter
      exact absurd (hafter.2 ▸ by simp) h'.last

end

/-! ### A record and its history -/

/-- What a network that had no records at `start` remembers of an account after some changes:
nothing if the account has not failed since it last answered, and otherwise how often it did and
how long it sits out, counted from the last time. -/
structure Remembers (min max : Duration) (start : Time) (id : AccountId) (changes : List Change)
    (m : Moment) : Prop where
  now : m.now = timeAfter start changes
  bounds : m.network.minBackoff = min ∧ m.network.maxBackoff = Nat.max max min
  none : faults id changes = 0 → Table.get? id m.network.health = none
  some : faults id changes ≠ 0 → ∃ before after, LastFault id changes before after ∧
    Table.get? id m.network.health = some
      ⟨Nat.min (faults id changes) maxFailures,
        timeAfter start before + sitOut min max (Nat.min (faults id changes) maxFailures)⟩

section
variable {min max : Duration} {start : Time} {id : AccountId} {changes : List Change} {m : Moment}

/-- A new network remembers that nothing has happened. -/
theorem remembers_nil {net : Network} (hnew : net.health = []) (min max : Duration) (start : Time)
    (id : AccountId) : Remembers min max start id [] ⟨net.withBackoff min max, start⟩ where
  now := rfl
  bounds := ⟨rfl, rfl⟩
  none _ := by
    show Table.get? id net.health = _
    rw [hnew]
    rfl
  some h := absurd rfl h

/-- The count of failures is that of the history. -/
theorem Remembers.failures_eq (h : Remembers min max start id changes m) :
    m.network.failures id = Nat.min (faults id changes) maxFailures := by
  rw [Network.failures_eq]
  by_cases hzero : faults id changes = 0
  · rw [h.none hzero, hzero]
    rfl
  · obtain ⟨before, after, -, hrecord⟩ := h.some hzero
    rw [hrecord]
    rfl

/-- Whether a node is healthy is a matter of the time of its last fault. -/
theorem Remembers.isHealthy_iff (h : Remembers min max start id changes m) :
    m.isHealthy id = true ↔ faults id changes = 0 ∨ ∃ before after,
      LastFault id changes before after ∧
        timeAfter start before + sitOut min max (Nat.min (faults id changes) maxFailures) ≤
          m.now := by
  rw [Moment.isHealthy, Network.isHealthy]
  by_cases hzero : faults id changes = 0
  · simp [h.none hzero, hzero]
  · obtain ⟨before, after, hlast, hrecord⟩ := h.some hzero
    simp only [hrecord, hzero, false_or, decide_eq_true_eq]
    constructor
    · exact fun hready => ⟨before, after, hlast, hready⟩
    · rintro ⟨before', after', hlast', hready⟩
      rwa [hlast.unique hlast']

/-- What happens to another account, or to nobody, leaves a record alone. -/
theorem get?_health_change_of_ne {c : Change} (hfailed : c ≠ .failed id)
    (hanswered : c ≠ .answered id) :
    Table.get? id (m.change c).network.health = Table.get? id m.network.health := by
  cases c with
  | failed id' =>
    exact Table.get?_insert_of_ne (fun heq => hfailed (congrArg Change.failed heq.symm)) _ _
  | answered id' =>
    exact Table.get?_erase_of_ne (fun heq => hanswered (congrArg Change.answered heq.symm)) _
  | passed time => rfl

/-- A change moves the clock by the time that passes, and the bounds stay. -/
theorem Moment.change_now (m : Moment) (c : Change) : (m.change c).now = m.now + c.elapsed := by
  cases c <;> rfl

/-- No change touches the times for failing nodes. -/
theorem Moment.change_bounds (m : Moment) (c : Change) :
    (m.change c).network.minBackoff = m.network.minBackoff ∧
      (m.change c).network.maxBackoff = m.network.maxBackoff := by
  cases c <;> exact ⟨rfl, rfl⟩

/-- The nodes stay as well. -/
theorem Moment.change_nodes (m : Moment) (c : Change) :
    (m.change c).network.nodes = m.network.nodes := by
  cases c <;> rfl

/-- A change is remembered. -/
theorem Remembers.step (h : Remembers min max start id changes m) (c : Change) :
    Remembers min max start id (changes ++ [c]) (m.change c) := by
  have hnow : (m.change c).now = timeAfter start (changes ++ [c]) := by
    rw [Moment.change_now, h.now, timeAfter_concat]
  have hbounds : (m.change c).network.minBackoff = min ∧
      (m.change c).network.maxBackoff = Nat.max max min := by
    rw [(m.change_bounds c).1, (m.change_bounds c).2]
    exact h.bounds
  -- An answer of the account, a failure of it, or something that is not about it.
  by_cases hanswered : c = .answered id
  · subst hanswered
    have hzero : faults id (changes ++ [.answered id]) = 0 := by
      rw [faults_concat, if_pos rfl]
    exact ⟨hnow, hbounds, fun _ => Table.get?_erase_self id _, fun hne => absurd hzero hne⟩
  by_cases hfailed : c = .failed id
  · subst hfailed
    have hcount : faults id (changes ++ [.failed id]) = faults id changes + 1 := by
      rw [faults_concat, if_neg hanswered, if_pos rfl]
    refine ⟨hnow, hbounds, fun hzero => ?_, fun _ => ⟨changes, [], lastFault_concat_self, ?_⟩⟩
    · rw [hcount] at hzero
      exact absurd hzero (Nat.succ_ne_zero _)
    · -- The count that is stored has been cut at the same place before.
      have hcut : Nat.min (m.network.failures id + 1) maxFailures =
          Nat.min (faults id changes + 1) maxFailures := by
        rw [h.failures_eq]
        exact min_succ_min _ _
      show Table.get? id (m.network.markUnhealthy m.now id).health = _
      rw [markUnhealthy, Table.get?_insert_self, hcut, hcount,
        penalty_eq_sitOut h.bounds.1 h.bounds.2, h.now]
  · have hcount : faults id (changes ++ [c]) = faults id changes := by
      rw [faults_concat, if_neg hanswered, if_neg hfailed, Nat.add_zero]
    -- The record stays, and so does the last fault, with one more change behind it.
    have hrecord := get?_health_change_of_ne (m := m) hfailed hanswered
    refine ⟨hnow, hbounds, fun hzero => ?_, fun hne => ?_⟩
    · rw [hrecord]
      exact h.none (hcount ▸ hzero)
    · rw [hcount] at hne ⊢
      obtain ⟨before, after, hlast, hget⟩ := h.some hne
      exact ⟨before, after ++ [c], hlast.concat hfailed, hrecord.trans hget⟩

/-- A history is remembered. -/
theorem remembers_run {net : Network} (hnew : net.health = []) (min max : Duration) (start : Time)
    (id : AccountId) (changes : List Change) :
    Remembers min max start id changes
      ((⟨net.withBackoff min max, start⟩ : Moment).run changes) := by
  induction changes using List.reverseRecOn with
  | nil => exact remembers_nil hnew min max start id
  | append_singleton changes c ih =>
    rw [Moment.run_concat]
    exact ih.step c

/-- The nodes are the same after any history. -/
theorem Moment.run_nodes (m : Moment) (changes : List Change) :
    (m.run changes).network.nodes = m.network.nodes := by
  induction changes using List.reverseRecOn with
  | nil => rfl
  | append_singleton changes c ih => rw [run_concat, change_nodes, ih]

end

/-! ### Whom a change is about -/

/-- Two moments that nothing asked about an account can tell apart, now or later. -/
structure Alike (id : AccountId) (m m' : Moment) : Prop where
  now : m.now = m'.now
  record : Table.get? id m.network.health = Table.get? id m'.network.health
  bounds : m.network.minBackoff = m'.network.minBackoff ∧
    m.network.maxBackoff = m'.network.maxBackoff

section
variable {id : AccountId} {m m' : Moment}

/-- Moments that are alike for a node agree on its failures. -/
theorem Alike.failures_eq (h : Alike id m m') :
    m.network.failures id = m'.network.failures id := by
  rw [Network.failures_eq, h.record, ← Network.failures_eq]

/-- They agree on its health. -/
theorem Alike.isHealthy_eq (h : Alike id m m') : m.isHealthy id = m'.isHealthy id := by
  rw [Moment.isHealthy, Network.isHealthy, h.record, h.now]
  rfl

/-- After the same change they are still alike. -/
theorem Alike.change (h : Alike id m m') (c : Change) : Alike id (m.change c) (m'.change c) where
  now := by rw [m.change_now, m'.change_now, h.now]
  bounds := by
    rw [(m.change_bounds c).1, (m.change_bounds c).2, (m'.change_bounds c).1,
      (m'.change_bounds c).2]
    exact h.bounds
  record := by
    -- The two records are erased, are counted on from the same count, or are not touched.
    by_cases hanswered : c = .answered id
    · subst hanswered
      exact (Table.get?_erase_self id _).trans (Table.get?_erase_self id _).symm
    by_cases hfailed : c = .failed id
    · subst hfailed
      show Table.get? id (m.network.markUnhealthy m.now id).health =
        Table.get? id (m'.network.markUnhealthy m'.now id).health
      rw [markUnhealthy, markUnhealthy, Table.get?_insert_self, Table.get?_insert_self,
        h.failures_eq, h.now, penalty, penalty, h.bounds.1, h.bounds.2]
    · rw [get?_health_change_of_ne hfailed hanswered, get?_health_change_of_ne hfailed hanswered,
        h.record]

/-- A change that is about another account leaves everything as it was. -/
theorem alike_change {c : Change} (hc : c.concerns id = false) : Alike id (m.change c) m := by
  cases c with
  | failed id' =>
    have hne : id' ≠ id := by simpa [Change.concerns] using hc
    exact ⟨rfl, Table.get?_insert_of_ne hne.symm _ _, ⟨rfl, rfl⟩⟩
  | answered id' =>
    have hne : id' ≠ id := by simpa [Change.concerns] using hc
    exact ⟨rfl, Table.get?_erase_of_ne hne.symm _, ⟨rfl, rfl⟩⟩
  | passed time => simp [Change.concerns] at hc

/-- Being alike is passed on. -/
theorem Alike.trans {m'' : Moment} (h : Alike id m m') (h' : Alike id m' m'') : Alike id m m'' :=
  ⟨h.now.trans h'.now, h.record.trans h'.record, h.bounds.1.trans h'.bounds.1,
    h.bounds.2.trans h'.bounds.2⟩

/-- Only what is about an account and the time that passes matter to it. -/
theorem alike_filter (m : Moment) (id : AccountId) (changes : List Change) :
    Alike id (m.run changes) (m.run (changes.filter (·.concerns id))) := by
  induction changes using List.reverseRecOn with
  | nil => exact ⟨rfl, rfl, ⟨rfl, rfl⟩⟩
  | append_singleton changes c ih =>
    rw [List.filter_append, Moment.run_concat]
    cases hc : c.concerns id with
    | true =>
      rw [List.filter_cons_of_pos hc, List.filter_nil, Moment.run_concat]
      -- The change is made to both, or to one of them only, where it is not seen.
      exact ih.change c
    | false =>
      rw [List.filter_cons_of_neg (by simp [hc]), List.filter_nil, List.append_nil]
      exact (alike_change hc).trans ih

end

/-! ### The law -/

/-- A node sits out for at most the longest time that a number of milliseconds of 64 bits gives, so
that the end of it is an instant like any other. -/
theorem sitOut_le (min max : UInt64) (failures : Nat) :
    sitOut (milliseconds min) (milliseconds max) failures ≤
      milliseconds (UInt64.ofNat (2 ^ 64 - 1)) := by
  have hle (n : UInt64) : milliseconds n ≤ milliseconds (UInt64.ofNat (2 ^ 64 - 1)) := by
    have hn := n.toNat_lt
    show n.toNat * 1000000 ≤ (2 ^ 64 - 1) * 1000000
    omega
  exact Nat.le_trans (Nat.min_le_right _ _) (Nat.max_le.2 ⟨hle max, hle min⟩)

/-- The law of how nodes have been doing. Whatever happens to the accounts of a network that has no
records yet, and however much time passes in between, an account's count of failures is how often it
has failed since it last answered, as far as 32 bits go. It is healthy if that is never, or from
when it has sat out its latest failure on. How long that is is exact, does not shrink with the
failures, and comes out the same where products that need more than their room are given up for the
maximum. What is about other accounts changes none of it, and the nodes are always the same. -/
theorem health_history {net : Network} (hnew : net.health = []) (min max : UInt64) (start : Time)
    (changes : List Change) (id : AccountId) :
    let begin : Moment := ⟨net.withBackoff (milliseconds min) (milliseconds max), start⟩
    let m := begin.run changes
    let alone := begin.run (changes.filter (·.concerns id))
    let span := sitOut (milliseconds min) (milliseconds max)
    m.now = timeAfter start changes ∧
      m.network.failures id = Nat.min (faults id changes) (2 ^ 32 - 1) ∧
      (m.isHealthy id = true ↔ m.network.failures id = 0 ∨ ∃ before after,
        LastFault id changes before after ∧
          timeAfter start before + span (m.network.failures id) ≤ m.now) ∧
      (∀ f, span f = ((multiple? (milliseconds min) (factor f)).map fun length =>
        Nat.min length (Nat.max (milliseconds max) (milliseconds min))).getD
          (Nat.max (milliseconds max) (milliseconds min)) ∧ factor f < 2 ^ 32 ∧
            span f ≤ milliseconds (UInt64.ofNat (2 ^ 64 - 1))) ∧
      (∀ f f', f ≤ f' → span f ≤ span f') ∧
      (m.network.failures id = alone.network.failures id ∧
        m.isHealthy id = alone.isHealthy id ∧ m.now = alone.now) ∧
      m.network.nodes = net.nodes := by
  intro begin m alone span
  have h := remembers_run hnew (milliseconds min) (milliseconds max) start id changes
  have halike := alike_filter begin id changes
  have hmaxFailures : maxFailures = 2 ^ 32 - 1 := rfl
  refine ⟨h.now, hmaxFailures ▸ h.failures_eq, ?_, fun f => ⟨?_, ?_, sitOut_le min max f⟩,
    fun f f' hle => sitOut_mono _ _ hle, ⟨halike.failures_eq, halike.isHealthy_eq, halike.now⟩,
    begin.run_nodes changes⟩
  · -- The count that is stored is cut off, but not at zero.
    have hzero : m.network.failures id = 0 ↔ faults id changes = 0 := by
      rw [h.failures_eq]
      exact min_eq_zero_iff _ (by decide)
    rw [h.isHealthy_iff, hzero, h.failures_eq]
  · exact sitOut_eq_checked min max f
  · exact factor_lt f

/-- Two nodes that fail, one of them twice. -/
def troubled : List Change :=
  [.failed ⟨0, 0, 3⟩, .passed (milliseconds 1500), .failed ⟨0, 0, 3⟩, .failed ⟨0, 0, 4⟩,
    .passed (milliseconds 1500)]

/-- The second failure in a row counts, and the node sits out for twice as long. The other node,
which failed at the same time, is back before. -/
theorem health_history_troubled :
    let m := (⟨Network.testnet.withBackoff (milliseconds 1000) (milliseconds 4000), 0⟩ : Moment).run
      troubled
    Network.testnet.health = [] ∧ m.network.failures ⟨0, 0, 3⟩ = 2 ∧
      m.network.failures ⟨0, 0, 3⟩ = Nat.min (faults ⟨0, 0, 3⟩ troubled) (2 ^ 32 - 1) ∧
      m.isHealthy ⟨0, 0, 3⟩ = false ∧ m.isHealthy ⟨0, 0, 4⟩ = true :=
  ⟨rfl, rfl, (health_history rfl 1000 4000 0 troubled ⟨0, 0, 3⟩).2.1, rfl, rfl⟩

end LedgerClient.Network
