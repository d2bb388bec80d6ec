import LedgerClient.Proofs.Network.Health
import LedgerClient.Proofs.Retry.Schedule
import Mathlib.Order.MinMax

/-!
# `LedgerClient.Proofs.Retry.Doubling`: the waits between attempts

The wait before a retry is the minimum, doubled with each retry after the
first, up to the maximum: `Backoff.doubled`. The factor that is used for it
has 32 bits, so the thirty-third retry has none, and waits for the maximum.
That is the doubled minimum only where 32 doublings reach the maximum.

* `delay_eq_doubled_iff`: at which retries the wait is the doubled minimum.
* `Doubling` says what is true of the waits in any case: they do not
  decrease, are within the bounds, double at each retry but the
  thirty-third, and stay at the maximum.
* `checkedDelay_eq`: the multiplication in a fixed number of bits gives the
  same waits as the exact one, as the maximum is one that has room.
* `doubling_stops_short`: waits that leap to the maximum.
-/

set_option autoImplicit false

namespace LedgerClient.Backoff

variable (b : Backoff)

/-- The minimum, doubled with each retry after the first, up to the maximum. -/
def doubled (retry : Nat) : Duration :=
  Nat.min (b.min * 2 ^ (retry - 1)) b.max

/-! ### Doubling without a limit -/

/-- A number that was cut at a limit before it is doubled is cut at the same place. -/
theorem min_two_mul_min (n limit : Nat) :
    Nat.min (2 * Nat.min n limit) limit = Nat.min (2 * n) limit := by
  show Min.min (2 * Min.min n limit) limit = Min.min (2 * n) limit
  omega

/-- One more retry doubles the wait, up to the maximum. -/
theorem doubled_succ {retry : Nat} (h : 1 ≤ retry) :
    b.doubled (retry + 1) = Nat.min (2 * b.doubled retry) b.max := by
  obtain ⟨k, rfl⟩ := Nat.exists_eq_add_of_le' h
  have hpow : b.min * 2 ^ (k + 1) = 2 * (b.min * 2 ^ k) := by
    rw [Nat.pow_succ, ← Nat.mul_assoc, Nat.mul_comm]
  show Nat.min (b.min * 2 ^ (k + 1)) b.max = Nat.min (2 * Nat.min (b.min * 2 ^ k) b.max) b.max
  rw [hpow, min_two_mul_min]

/-- The doubled wait never shrinks. -/
theorem doubled_mono {retry retry' : Nat} (h : retry ≤ retry') :
    b.doubled retry ≤ b.doubled retry' := by
  have hpow : b.min * 2 ^ (retry - 1) ≤ b.min * 2 ^ (retry' - 1) :=
    Nat.mul_le_mul_left _ (Nat.pow_le_pow_right (by decide) (Nat.sub_le_sub_right h 1))
  exact Nat.le_min.2 ⟨Nat.le_trans (Nat.min_le_left _ _) hpow, Nat.min_le_right _ _⟩

/-- It is at the maximum as soon as the product is. -/
theorem doubled_eq_max_iff (retry : Nat) :
    b.doubled retry = b.max ↔ b.max ≤ b.min * 2 ^ (retry - 1) :=
  min_eq_right_iff

/-- It is never below the minimum. -/
theorem min_le_doubled (retry : Nat) : b.min ≤ b.doubled retry := by
  have hpow : b.min * 1 ≤ b.min * 2 ^ (retry - 1) :=
    Nat.mul_le_mul_left _ (Nat.pow_pos (by decide))
  rw [Nat.mul_one] at hpow
  exact Nat.le_min.2 ⟨hpow, b.min_le_max⟩

/-! ### The limit of the factor -/

/-- There is no wait before the first attempt. -/
theorem delay_zero : b.delay 0 = 0 := rfl

/-- As long as the factor has 32 bits, the wait is the doubled minimum. -/
theorem delay_of_le {retry : Nat} (h : 1 ≤ retry) (hlast : retry ≤ 32) :
    b.delay retry = b.doubled retry := by
  have hfactor : retry ≤ lastDoubling := hlast
  rw [delay, if_neg (by omega), if_pos hfactor, Nat.shiftLeft_eq, doubled]

/-- From then on it is the maximum. -/
theorem delay_of_lt {retry : Nat} (h : 32 < retry) : b.delay retry = b.max := by
  have hlast : ¬ retry ≤ lastDoubling := Nat.not_le_of_lt h
  rw [delay, if_neg (by omega), if_neg hlast]

/-- The wait is the doubled minimum exactly if the factor has room, or the maximum is reached
anyway. -/
theorem delay_eq_doubled_iff {retry : Nat} (h : 1 ≤ retry) :
    b.delay retry = b.doubled retry ↔ retry ≤ 32 ∨ b.max ≤ b.min * 2 ^ (retry - 1) := by
  by_cases hlast : retry ≤ 32
  · simp [b.delay_of_le h hlast, hlast]
  · rw [b.delay_of_lt (by omega), eq_comm, doubled_eq_max_iff]
    simp [hlast]

/-- All waits are the doubled minimum exactly if 32 doublings reach the maximum. -/
theorem forall_delay_eq_doubled_iff :
    (∀ retry, 1 ≤ retry → b.delay retry = b.doubled retry) ↔ b.max ≤ b.min * 2 ^ 32 := by
  constructor
  · intro h
    -- The first retry without a factor is the one to look at.
    have hfirst := h 33 (by omega)
    rw [b.delay_eq_doubled_iff (by omega)] at hfirst
    rcases hfirst with hearly | hreached
    · omega
    · exact hreached
  · intro h retry hretry
    rw [b.delay_eq_doubled_iff hretry]
    by_cases hlast : retry ≤ 32
    · exact .inl hlast
    · -- The maximum is reached by then, and the doubled wait stays there.
      have hreached := (b.doubled_eq_max_iff 33).2 h
      have hle : b.doubled 33 ≤ b.doubled retry := b.doubled_mono (by omega)
      refine .inr ((b.doubled_eq_max_iff retry).1 (Nat.le_antisymm (Nat.min_le_right _ _) ?_))
      rwa [hreached] at hle

/-! ### What holds of the waits -/

/-- No wait before a retry is below the minimum. -/
theorem min_le_delay {retry : Nat} (h : 1 ≤ retry) : b.min ≤ b.delay retry := by
  by_cases hlast : retry ≤ 32
  · rw [b.delay_of_le h hlast]
    exact b.min_le_doubled retry
  · rw [b.delay_of_lt (by omega)]
    exact b.min_le_max

/-- Waits never shrink, also where the factor ends: there they are at the maximum. -/
theorem monotone_delay : Monotone b.delay := by
  intro retry retry' h
  by_cases hlast : retry' ≤ 32
  · -- There is no wait before the first attempt, so nothing is shorter.
    by_cases hzero : retry = 0
    · rw [hzero, delay_zero]
      exact Nat.zero_le _
    · rw [b.delay_of_le (by omega) (by omega), b.delay_of_le (by omega) hlast]
      exact b.doubled_mono h
  · have hlate : b.delay retry' = b.max := b.delay_of_lt (by omega)
    rw [hlate]
    exact b.delay_le_max retry

/-- Each wait but one is twice the one before, up to the maximum. -/
theorem delay_succ {retry : Nat} (h : 1 ≤ retry) (hlast : retry ≠ 32) :
    b.delay (retry + 1) = Nat.min (2 * b.delay retry) b.max := by
  by_cases hlt : retry < 32
  · rw [b.delay_of_le (by omega) hlt, b.delay_of_le h (by omega), b.doubled_succ h]
  · rw [b.delay_of_lt (by omega), b.delay_of_lt (by omega)]
    have hle : b.max ≤ 2 * b.max := Nat.le_mul_of_pos_left _ (by decide)
    exact (Nat.min_eq_right hle).symm

/-- The maximum is not left again. -/
theorem delay_eq_max_of_le {retry retry' : Nat} (h : b.delay retry = b.max)
    (hle : retry ≤ retry') : b.delay retry' = b.max :=
  Nat.le_antisymm (b.delay_le_max retry') (h ▸ b.monotone_delay hle)

/-- So they are listed in order. -/
theorem pairwise_delays (count : Nat) : (b.delays count).Pairwise (· ≤ ·) := by
  rw [delays, List.pairwise_map]
  refine List.pairwise_lt_range.imp fun hlt => ?_
  exact b.monotone_delay (Nat.succ_le_succ (Nat.le_of_lt hlt))

/-- Every wait is within the bounds. -/
theorem bounds_of_mem_delays {count : Nat} {wait : Duration} (h : wait ∈ b.delays count) :
    b.min ≤ wait ∧ wait ≤ b.max := by
  obtain ⟨k, -, rfl⟩ := List.mem_map.1 h
  exact ⟨b.min_le_delay (Nat.succ_pos k), b.delay_le_max (k + 1)⟩

/-! ### Arithmetic in a fixed number of bits -/

/-- One, moved up by a number of places of which there are 32. -/
def factor? (places : UInt32) : Option UInt32 :=
  if places < 32 then some (1 <<< places) else none

/-- The wait before a retry, where the maximum stands for a factor or a product without room. -/
def checkedDelay (retry : UInt32) : Duration :=
  if retry = 0 then 0
  else ((factor? (retry - 1)).bind fun factor => Network.multiple? b.min factor.toNat).elim b.max
    fun wait => Nat.min wait b.max

/-- A shift by fewer than 32 places is a power of two, and has room in 32 bits. -/
theorem factor?_eq {places : UInt32} {count : Nat} (h : places.toNat = count) (hlt : count < 32) :
    ∃ factor, factor? places = some factor ∧ factor.toNat = 2 ^ count := by
  have hplaces : places < 32 := UInt32.lt_iff_toNat_lt.2 (h ▸ hlt)
  refine ⟨1 <<< places, if_pos hplaces, ?_⟩
  rw [UInt32.toNat_shiftLeft, h, Nat.mod_eq_of_lt hlt, UInt32.toNat_one, Nat.one_shiftLeft]
  exact Nat.mod_eq_of_lt (Nat.pow_lt_pow_right (by decide) hlt)

/-- A product without room is past the maximum, so that the wait is the maximum in any case. -/
theorem checkedDelay_eq (hroom : b.max < Network.durationSize) (retry : UInt32) :
    b.checkedDelay retry = b.delay retry.toNat := by
  unfold checkedDelay
  by_cases hzero : retry = 0
  · rw [if_pos hzero, hzero]
    rfl
  -- The program shifts one by the number of the retry less one.
  have hpos : retry.toNat ≠ 0 := fun h => hzero (UInt32.toNat_inj.1 h)
  have hone : (1 : UInt32) ≤ retry := UInt32.le_iff_toNat_le.2 (Nat.pos_of_ne_zero hpos)
  have hplaces : (retry - 1).toNat = retry.toNat - 1 := UInt32.toNat_sub_of_le _ _ hone
  rw [if_neg hzero]
  by_cases hlast : retry.toNat ≤ 32
  · obtain ⟨factor, hfactor, hvalue⟩ := factor?_eq hplaces (by omega)
    rw [hfactor, Option.bind_some, hvalue, b.delay_of_le (by omega) hlast, doubled,
      Network.multiple?]
    by_cases hfits : b.min * 2 ^ (retry.toNat - 1) < Network.durationSize
    · rw [if_pos hfits]
      rfl
    · rw [if_neg hfits]
      exact (Nat.min_eq_right (Nat.le_trans (Nat.le_of_lt hroom) (Nat.le_of_not_lt hfits))).symm
  · -- Thirty-two places or more are too many for a shift.
    have hnone : factor? (retry - 1) = none := by
      refine if_neg fun hlt => ?_
      have hlt' : (retry - 1).toNat < 32 := UInt32.lt_iff_toNat_lt.1 hlt
      omega
    rw [hnone, b.delay_of_lt (by omega)]
    rfl

/-! ### The waits as a whole -/

/-- What the waits before the retries are like. -/
structure Doubling : Prop where
  first : b.delay 0 = 0
  exact_iff : ∀ retry, 1 ≤ retry →
    (b.delay retry = b.doubled retry ↔ retry ≤ 32 ∨ b.max ≤ b.min * 2 ^ (retry - 1))
  late : ∀ retry, 32 < retry → b.delay retry = b.max
  always_exact_iff :
    (∀ retry, 1 ≤ retry → b.delay retry = b.doubled retry) ↔ b.max ≤ b.min * 2 ^ 32
  bounds : ∀ retry, 1 ≤ retry → b.min ≤ b.delay retry ∧ b.delay retry ≤ b.max
  monotone : Monotone b.delay
  doubles : ∀ retry, 1 ≤ retry → retry ≠ 32 →
    b.delay (retry + 1) = Nat.min (2 * b.delay retry) b.max
  stays : ∀ retry retry', b.delay retry = b.max → retry ≤ retry' → b.delay retry' = b.max
  sequence : ∀ count, (b.delays count).Pairwise (· ≤ ·) ∧
    ∀ wait ∈ b.delays count, b.min ≤ wait ∧ wait ≤ b.max
  checked : b.max < Network.durationSize → ∀ retry, b.checkedDelay retry = b.delay retry.toNat

/-- Any bounds. A maximum below the minimum is raised to it. Nothing is waited before the first
attempt, and before a retry the minimum, doubled with each retry after the first, up to the maximum:
at the first 32 retries, and at a later one if that is the maximum. All later ones wait for the
maximum. So the waits are the doubled minimum throughout if and only if 32 doublings reach the
maximum. In any case they do not decrease, are within the bounds, double at each retry but the
thirty-third until they reach the maximum, and stay there. -/
theorem doubles_until_factor_ends (min max : Duration) :
    (ofBounds min max).min = min ∧ (ofBounds min max).max = Nat.max max min ∧
      (ofBounds min max).Doubling := by
  refine ⟨rfl, rfl, ?_⟩
  exact {
    first := delay_zero _
    exact_iff := fun _ h => delay_eq_doubled_iff _ h
    late := fun _ h => delay_of_lt _ h
    always_exact_iff := forall_delay_eq_doubled_iff _
    bounds := fun retry h => ⟨min_le_delay _ h, delay_le_max _ retry⟩
    monotone := monotone_delay _
    doubles := fun _ h hlast => delay_succ _ h hlast
    stays := fun _ _ h hle => delay_eq_max_of_le _ h hle
    sequence := fun count => ⟨pairwise_delays _ count, fun _ h => bounds_of_mem_delays _ h⟩
    checked := fun hroom retry => checkedDelay_eq _ hroom retry }

/-- From a millisecond on, 32 doublings do not reach ten million seconds. The thirty-third wait is
the maximum all the same, and not twice the one before. Without a minimum there is nothing to
double, and the thirty-third wait is the maximum too. -/
theorem doubling_stops_short :
    (ofBounds (milliseconds 1) (milliseconds 10000000000)).delay 32 = milliseconds 2147483648 ∧
      (ofBounds (milliseconds 1) (milliseconds 10000000000)).delay 33 =
        milliseconds 10000000000 ∧
      (ofBounds (milliseconds 1) (milliseconds 10000000000)).doubled 33 = milliseconds 4294967296 ∧
      (ofBounds 0 (milliseconds 8000)).delay 33 = milliseconds 8000 ∧
      (ofBounds 0 (milliseconds 8000)).doubled 33 = 0 := by
  decide

end LedgerClient.Backoff
