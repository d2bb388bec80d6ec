import LedgerClient.Ledger.TimestampSource
import LedgerClient.Proofs.Ledger.Instants
import Mathlib.Algebra.GroupWithZero.Nat
import Mathlib.Data.List.Induction

/-!
# `LedgerClient.Proofs.Ledger.SharedSource`: fresh instants for many callers

All callers take their fresh instants from one cell, and none waits for
another: a call looks at the cell, works out the next value, and exchanges
it for the one it saw. If the cell has changed meanwhile the exchange fails,
shows the call a value to go on with, and is tried again. It may also fail
for no reason, and what a look or a failure shows may be out of date: any
value that the cell has ever held. Clocks may show anything.

Only an exchange changes the cell, and it counts on the value that is there.
So whatever happens in between, the values that are handed out are those
that a caller alone gets from `Timestamp.monotonic` (`Sound.instants_eq`).
That takes exact arithmetic, and 64 bits are enough for it as long as there
are not too many calls (`Sound.cell_lt`).

* `Sound.step`: what a step preserves. `Sound.exchanged` is about the step
  that hands something out.
* `fresh_instants_increase`: what a whole run hands out.
* `exists_instants_eq`: whatever the clocks show, there is a run that hands
  out an instant for each.
-/

set_option autoImplicit false

namespace LedgerClient

namespace Timestamp

/-- The value of a monotonic source after a row of clock readings. -/
def latest (last : Nat) (readings : List Nat) : Nat :=
  readings.foldl nextNanos last

/-! ### One caller alone -/

/-- The last number that is handed out follows from the one before it and the last reading. -/
theorem latest_concat (last : Nat) (readings : List Nat) (reading : Nat) :
    latest last (readings ++ [reading]) = nextNanos (latest last readings) reading := by
  rw [latest, List.foldl_append]
  rfl

/-- One more reading hands out one more instant, at the end. -/
theorem monotonic_concat (last : Nat) (readings : List Nat) (reading : Nat) :
    monotonic last (readings ++ [reading]) =
      monotonic last readings ++ [ofNanos (nextNanos (latest last readings) reading)] := by
  induction readings generalizing last with
  | nil => rfl
  | cons first rest ih =>
    rw [List.cons_append, monotonic, monotonic, ih]
    rfl

/-- A clock that 63 bits do not reach counts as standing at the epoch. -/
theorem reading_lt (clock : Int) : reading clock < 2 ^ 63 := by
  unfold reading
  split
  next hle =>
    rw [Int64.toInt_maxValue] at hle
    omega
  · omega

end Timestamp

/-- A call on its way: what the clock showed it, and the value of the cell on which it counts, once
it has looked. -/
structure SharedSource.Call where
  clock : Int
  seen : Option UInt64

/-- A call that is over: what the clock showed it, and the value that it put into the cell. -/
structure SharedSource.Handout where
  clock : Int
  value : UInt64

/-- The cell with the values that it held before, the calls on their way, and what was handed out
so far, in the order of the exchanges. Every call counts as a caller of its own. -/
structure SharedSource where
  cell : UInt64 := 0
  past : List UInt64 := []
  calls : List SharedSource.Call := []
  handouts : List SharedSource.Handout := []

namespace SharedSource

/-- What a call puts into the cell: what the clock showed it, or the value after the one it saw. -/
def Call.next (c : Call) (seen : UInt64) : UInt64 :=
  max (UInt64.ofNat (Timestamp.reading c.clock)) (seen + 1)

/-- The cell holds a value, or held it at some time. -/
def Held (s : SharedSource) (v : UInt64) : Prop :=
  v = s.cell ∨ v ∈ s.past

/-- A call begins by reading the clock. -/
def begun (s : SharedSource) (clock : Int) : SharedSource :=
  { s with calls := s.calls ++ [⟨clock, none⟩] }

/-- A call is shown a value to count on. -/
def shown (s : SharedSource) (i : Nat) (c : Call) (v : UInt64) : SharedSource :=
  { s with calls := s.calls.set i ⟨c.clock, some v⟩ }

/-- A call that counted on what is in the cell exchanges it for the next value, and is over. -/
def exchanged (s : SharedSource) (i : Nat) (c : Call) : SharedSource where
  cell := c.next s.cell
  past := s.cell :: s.past
  calls := s.calls.eraseIdx i
  handouts := s.handouts ++ [⟨c.clock, c.next s.cell⟩]

/-- One thing happens. A call begins; looks at the cell for the first time; fails to exchange a
value, whether the cell holds that value or not; or succeeds. -/
inductive Step (s : SharedSource) : SharedSource → Prop
  | begin (clock : Int) : Step s (s.begun clock)
  | look {i : Nat} {c : Call} {v : UInt64} (pending : s.calls[i]? = some c)
      (first : c.seen = none) (held : s.Held v) : Step s (s.shown i c v)
  | fail {i : Nat} {c : Call} {last v : UInt64} (pending : s.calls[i]? = some c)
      (counted : c.seen = some last) (held : s.Held v) : Step s (s.shown i c v)
  | exchange {i : Nat} {c : Call} (pending : s.calls[i]? = some c)
      (counted : c.seen = some s.cell) : Step s (s.exchanged i c)

/-- What can come about from a cell that nobody has used. -/
inductive Reached : SharedSource → Prop
  | start : Reached {}
  | step {s s' : SharedSource} (before : Reached s) (last : Step s s') : Reached s'

/-- How many calls there were so far: those on their way and those that are over. -/
def total (s : SharedSource) : Nat :=
  s.calls.length + s.handouts.length

/-- The values that were handed out. -/
def values (s : SharedSource) : List UInt64 :=
  s.handouts.map (·.value)

/-- The instants that were handed out. -/
def instants (s : SharedSource) : List Timestamp :=
  s.handouts.map fun h => Timestamp.ofNanos h.value.toNat

/-- The clock readings of the calls that are over. -/
def readings (s : SharedSource) : List Nat :=
  s.handouts.map fun h => Timestamp.reading h.clock

/-- What is true of the source as long as the cell has not come to the end of its 64 bits. -/
structure Sound (s : SharedSource) : Prop where
  held_le : ∀ v, s.Held v → v.toNat ≤ s.cell.toNat
  seen_le : ∀ c ∈ s.calls, ∀ v, c.seen = some v → v.toNat ≤ s.cell.toNat
  values_le : ∀ v ∈ s.values, v.toNat ≤ s.cell.toNat
  cell_lt : s.cell.toNat < 2 ^ 63 + s.handouts.length
  increasing : s.values.Pairwise (· < ·)
  reading_le : ∀ h ∈ s.handouts, Timestamp.reading h.clock ≤ h.value.toNat
  cell_eq : s.cell.toNat = Timestamp.latest 0 s.readings
  instants_eq : s.instants = Timestamp.monotonic 0 s.readings

variable {s s' : SharedSource} {c : Call} {i : Nat} {v : UInt64}

/-! ### The next value in 64 bits -/

/-- The larger of two words is the larger of their numbers. -/
theorem toNat_max (a b : UInt64) : (max a b).toNat = max a.toNat b.toNat := by
  show (if a ≤ b then b else a).toNat = _
  rw [apply_ite UInt64.toNat, Nat.max_def]
  exact if_congr UInt64.le_iff_toNat_le rfl rfl

/-- Before the end of the 64 bits the next value is the exact one. -/
theorem Call.toNat_next (c : Call) {seen : UInt64} (h : seen.toNat + 1 < UInt64.size) :
    (c.next seen).toNat = max (Timestamp.reading c.clock) (seen.toNat + 1) := by
  have hreading : (UInt64.ofNat (Timestamp.reading c.clock)).toNat = Timestamp.reading c.clock :=
    UInt64.toNat_ofNat_of_lt' (Nat.lt_trans (Timestamp.reading_lt c.clock) (by decide))
  have hsucc : (seen + 1).toNat = seen.toNat + 1 := by
    rw [UInt64.toNat_add]
    exact Nat.mod_eq_of_lt h
  rw [Call.next, toNat_max, hreading, hsucc]

/-! ### What a step does to the handouts -/

/-- An exchange hands out one more value, the one that the caller had worked out. -/
theorem values_exchanged : (s.exchanged i c).values = s.values ++ [c.next s.cell] :=
  List.map_append

/-- It is handed out for the reading with which the call began. -/
theorem readings_exchanged :
    (s.exchanged i c).readings = s.readings ++ [Timestamp.reading c.clock] :=
  List.map_append

/-- The instant is that of the value. -/
theorem instants_exchanged :
    (s.exchanged i c).instants = s.instants ++ [Timestamp.ofNanos (c.next s.cell).toNat] :=
  List.map_append

/-- There is one handout more. -/
theorem length_handouts_exchanged :
    (s.exchanged i c).handouts.length = s.handouts.length + 1 :=
  List.length_append

/-- There are never fewer calls than before. -/
theorem Step.total_le (h : Step s s') : s.total ≤ s'.total := by
  cases h with
  -- One more call is on its way.
  | begin clock =>
    show _ ≤ (s.calls ++ [_]).length + s.handouts.length
    rw [List.length_append, total]
    omega
  -- A call that looks at the cell, or fails, stays on its way.
  | look _ _ _ =>
    show _ ≤ (s.calls.set _ _).length + s.handouts.length
    rw [List.length_set]
    exact Nat.le_refl _
  | fail _ _ _ =>
    show _ ≤ (s.calls.set _ _).length + s.handouts.length
    rw [List.length_set]
    exact Nat.le_refl _
  | exchange pending _ =>
    -- The call is one less on its way and one more that is over.
    have hlt := (List.getElem?_eq_some_iff.1 pending).1
    show _ ≤ (s.calls.eraseIdx _).length + _
    rw [length_handouts_exchanged, List.length_eraseIdx_of_lt hlt, total]
    omega

/-! ### What a step preserves -/

/-- A source that nobody has called yet is sound. -/
theorem sound_start : Sound {} where
  held_le := by
    rintro v (rfl | hpast)
    · exact Nat.le_refl _
    · cases hpast
  seen_le := nofun
  values_le := nofun
  cell_lt := by decide
  increasing := .nil
  reading_le := nofun
  cell_eq := rfl
  instants_eq := rfl

/-- A call that begins leaves the source sound: it only notes what the clock shows. -/
theorem Sound.begun (h : Sound s) (clock : Int) : Sound (s.begun clock) :=
  { h with
    seen_le := by
      intro c hc v hv
      rcases List.mem_append.1 hc with hold | hnew
      · exact h.seen_le c hold v hv
      · cases List.mem_singleton.1 hnew
        cases hv }

/-- What a look or a failure shows has been in the cell, so it is not more than what is there. -/
theorem Sound.shown (h : Sound s) (held : s.Held v) (i : Nat) (c : Call) : Sound (s.shown i c v) :=
  { h with
    seen_le := by
      intro other hother w hw
      rcases List.mem_or_eq_of_mem_set hother with hold | rfl
      · exact h.seen_le other hold w hw
      · cases hw
        exact h.held_le v held }

/-- An exchange takes the cell from what it holds to the next value, which is larger than everything
so far. -/
theorem Sound.exchanged (h : Sound s) (i : Nat) (c : Call) (hfew : s.handouts.length < 2 ^ 63) :
    Sound (s.exchanged i c) := by
  have hcell := h.cell_lt
  have hreading := Timestamp.reading_lt c.clock
  have hroom : s.cell.toNat + 1 < UInt64.size := by
    unfold UInt64.size
    omega
  -- All that is needed of the new value: it is past the cell, and 63 bits or one more.
  have hnext : (s.exchanged i c).cell.toNat =
      max (Timestamp.reading c.clock) (s.cell.toNat + 1) := c.toNat_next hroom
  exact {
    held_le := by
      rintro v (rfl | hpast)
      · exact Nat.le_refl _
      · have hle := h.held_le v (List.mem_cons.1 hpast)
        omega
    -- What the other calls saw stays behind, so their exchanges fail from now on.
    seen_le := by
      intro other hother v hv
      have hle := h.seen_le other (List.mem_of_mem_eraseIdx hother) v hv
      omega
    values_le := by
      intro v hv
      rw [values_exchanged] at hv
      rcases List.mem_append.1 hv with hold | hnew
      · have hle := h.values_le v hold
        omega
      · cases List.mem_singleton.1 hnew
        exact Nat.le_refl _
    -- The cell grows by one, or jumps to a reading, which has at most 63 bits.
    cell_lt := by
      rw [length_handouts_exchanged]
      omega
    increasing := by
      rw [values_exchanged, List.pairwise_append]
      refine ⟨h.increasing, List.pairwise_singleton .., fun v hv w hw => ?_⟩
      cases List.mem_singleton.1 hw
      have hle := h.values_le v hv
      have hlt : v.toNat < (s.exchanged i c).cell.toNat := by omega
      exact UInt64.lt_iff_toNat_lt.2 hlt
    reading_le := by
      intro handout hmem
      rcases List.mem_append.1 hmem with hold | hnew
      · exact h.reading_le handout hold
      · cases List.mem_singleton.1 hnew
        show Timestamp.reading c.clock ≤ (s.exchanged i c).cell.toNat
        omega
    cell_eq := by
      rw [readings_exchanged, Timestamp.latest_concat, ← h.cell_eq]
      exact hnext
    -- By the source alone, the next instant is the one of the next value.
    instants_eq := by
      have hvalue : (c.next s.cell).toNat =
          Timestamp.nextNanos s.cell.toNat (Timestamp.reading c.clock) := hnext
      rw [instants_exchanged, readings_exchanged, Timestamp.monotonic_concat, ← h.instants_eq,
        ← h.cell_eq, hvalue] }

/-- Every step leaves the source sound, as long as there are few enough of them. -/
theorem Sound.step (h : Sound s) (hstep : Step s s') (hfew : s'.total < 2 ^ 63) : Sound s' := by
  cases hstep with
  | begin clock => exact h.begun clock
  | look _ _ held => exact h.shown held _ _
  | fail _ _ held => exact h.shown held _ _
  | exchange _ _ =>
    refine h.exchanged _ _ ?_
    rw [total, length_handouts_exchanged] at hfew
    omega

/-! ### A whole run -/

/-- So the source is sound however far the calls have come. -/
theorem Reached.sound (h : Reached s) (hfew : s.total < 2 ^ 63) : Sound s := by
  -- The bound at the end of the run is one for every state before it.
  induction h with
  | start => exact sound_start
  | step _ last ih => exact (ih (Nat.lt_of_le_of_lt last.total_le hfew)).step last hfew

/-- A value of 64 bits is the number of nanoseconds of its instant, so the instants are in the order
of the values. -/
theorem Sound.instants_increasing (h : Sound s) : s.instants.Pairwise (· < ·) := by
  have hmap : s.instants = s.values.map fun v => Timestamp.ofNanos v.toNat := by
    rw [values, List.map_map]
    rfl
  rw [hmap, List.pairwise_map]
  refine h.increasing.imp fun {v w} hlt => ?_
  rw [Timestamp.lt_iff_totalNanos (Timestamp.valid_ofNanos v.toNat_lt_size)
      (Timestamp.valid_ofNanos w.toNat_lt_size), Timestamp.totalNanos_ofNanos v.toNat_lt_size,
    Timestamp.totalNanos_ofNanos w.toNat_lt_size]
  exact Int.ofNat_lt.2 (UInt64.lt_iff_toNat_lt.1 hlt)

/-- What is handed out is valid, no matter how many calls there were. -/
theorem valid_of_mem_instants {t : Timestamp} (h : t ∈ s.instants) : t.Valid := by
  obtain ⟨handout, -, rfl⟩ := List.mem_map.1 h
  exact Timestamp.valid_ofNanos handout.value.toNat_lt_size

/-- A call on its way leaves room for the value after the one it counts on. -/
theorem Sound.succ_lt (h : Sound s) (hfew : s.total < 2 ^ 63) (hc : c ∈ s.calls)
    (hv : c.seen = some v) : v.toNat + 1 < UInt64.size := by
  have hcell := h.cell_lt
  have hle := h.seen_le c hc v hv
  have hhandouts : s.handouts.length ≤ s.total := Nat.le_add_left ..
  unfold UInt64.size
  omega

/-- Any run with fewer than 2 ^ 63 calls, whatever their clocks show and however their looks and
exchanges come in between one another. The values that are handed out increase in the order of the
exchanges, and none is less than what the clock showed to the call that gets it. Their instants are
valid and all different, and increase in the same order. They are those that a caller alone gets for
the same clock readings, and no call comes to the end of the 64 bits. -/
theorem fresh_instants_increase {s : SharedSource} (h : Reached s) (hfew : s.total < 2 ^ 63) :
    s.values.Pairwise (· < ·) ∧
      (∀ handout ∈ s.handouts, Timestamp.reading handout.clock ≤ handout.value.toNat) ∧
      (∀ t ∈ s.instants, t.Valid) ∧ s.instants.Nodup ∧ s.instants.Pairwise (· < ·) ∧
      s.instants = Timestamp.monotonic 0 s.readings ∧
      (∀ c ∈ s.calls, ∀ v, c.seen = some v → v.toNat + 1 < UInt64.size) := by
  have hsound := h.sound hfew
  have hinstants := hsound.instants_increasing
  refine ⟨hsound.increasing, hsound.reading_le, fun _ => valid_of_mem_instants, ?_, hinstants,
    hsound.instants_eq, fun _ hc _ hv => hsound.succ_lt hfew hc hv⟩
  -- Nothing is before itself, so what increases does not repeat.
  refine hinstants.imp fun hlt heq => ?_
  rw [heq, Timestamp.lt_iff] at hlt
  omega

/-- Two calls that begin while the cell is unused; for the second one the clock has jumped back. The
first one fails although the cell has not changed, and then succeeds. The second one fails because
of that, and is shown a value that is out of date, so that it fails again. -/
def overtaken : SharedSource :=
  (((((((({} : SharedSource).begun 1000000000000000000).begun 999999999999999995
    |>.shown 0 ⟨1000000000000000000, none⟩ 0)
    |>.shown 1 ⟨999999999999999995, none⟩ 0)
    |>.shown 0 ⟨1000000000000000000, some 0⟩ 0)
    |>.exchanged 0 ⟨1000000000000000000, some 0⟩)
    |>.shown 0 ⟨999999999999999995, some 0⟩ 0)
    |>.shown 0 ⟨999999999999999995, some 0⟩ 1000000000000000000)
    |>.exchanged 0 ⟨999999999999999995, some 1000000000000000000⟩

/-- The calls get there step by step. -/
theorem reached_overtaken : Reached overtaken := by
  refine .step ?_ (.exchange rfl (by decide))
  refine .step ?_ (.fail rfl rfl (.inl (by decide)))
  refine .step ?_ (.fail rfl rfl (.inr (by decide)))
  refine .step ?_ (.exchange rfl rfl)
  refine .step ?_ (.fail rfl rfl (.inl rfl))
  refine .step ?_ (.look rfl rfl (.inl rfl))
  refine .step ?_ (.look rfl rfl (.inl rfl))
  exact (Reached.start.step (.begin _)).step (.begin _)

/-- The second call is overtaken by the first one and fails twice, and still the instants
increase. -/
theorem fresh_instants_increase_overtaken :
    Reached overtaken ∧ overtaken.total < 2 ^ 63 ∧
      overtaken.instants = [⟨1000000000, 0⟩, ⟨1000000000, 1⟩] ∧
      overtaken.instants.Pairwise (· < ·) ∧
      overtaken.instants = Timestamp.monotonic 0 overtaken.readings := by
  have hfew : overtaken.total < 2 ^ 63 := by decide
  obtain ⟨-, -, -, -, hincreasing, halone, -⟩ := fresh_instants_increase reached_overtaken hfew
  exact ⟨reached_overtaken, hfew, by decide, hincreasing, halone⟩

/-- Whatever the clocks show, there is a run in which one call after the other gets an instant. -/
theorem exists_reached (clocks : List Int) :
    ∃ s, Reached s ∧ s.calls = [] ∧ s.readings = clocks.map Timestamp.reading := by
  induction clocks using List.reverseRecOn with
  | nil => exact ⟨{}, .start, rfl, rfl⟩
  | append_singleton clocks clock ih =>
    obtain ⟨s, hs, hcalls, hreadings⟩ := ih
    -- The others are over, so the last call is the only one on its way.
    have hbegun : (s.begun clock).calls = [⟨clock, none⟩] := by
      show s.calls ++ _ = _
      rw [hcalls, List.nil_append]
    have hshown :
        ((s.begun clock).shown 0 ⟨clock, none⟩ s.cell).calls = [⟨clock, some s.cell⟩] := by
      show (s.begun clock).calls.set 0 _ = _
      rw [hbegun]
      rfl
    have hready := (hs.step (.begin clock)).step (.look (congrArg (·[0]?) hbegun) rfl (.inl rfl))
    refine ⟨_, hready.step (.exchange (congrArg (·[0]?) hshown) rfl), ?_, ?_⟩
    · exact congrArg (·.eraseIdx 0) hshown
    · rw [readings_exchanged, List.map_append]
      exact congrArg (· ++ _) hreadings

/-- What one caller alone gets from a monotonic source, it can get from the cell. -/
theorem exists_instants_eq {clocks : List Int} (hfew : clocks.length < 2 ^ 63) :
    ∃ s, Reached s ∧ s.instants = Timestamp.monotonic 0 (clocks.map Timestamp.reading) := by
  obtain ⟨s, hs, hcalls, hreadings⟩ := exists_reached clocks
  have htotal : s.total = clocks.length := by
    have hlength := congrArg List.length hreadings
    rw [readings, List.length_map, List.length_map] at hlength
    rw [total, hcalls, hlength, List.length_nil, Nat.zero_add]
  refine ⟨s, hs, ?_⟩
  rw [(hs.sound (htotal ▸ hfew)).instants_eq, hreadings]

end SharedSource

end LedgerClient
