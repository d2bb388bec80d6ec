import LedgerClient.Proofs.Ledger.Instants

/-!
# `LedgerClient.Proofs.Ledger.AddedTime`: an instant some nanoseconds later

The fields of `t.plusNanos n` are the quotient and the remainder of the
exact sum, except that the seconds stop at their largest value
(`seconds_plusNanos`, `nanos_plusNanos`). `HasRoom` says that they do not
have to. Everything else follows from these two equations.

* `sums_exact`: a sum with room is the instant of the exact number of
  nanoseconds, and adding twice is adding once, with room or without.
* `adding_never_goes_back_iff`: which sums are in order. The remainder is
  not held when the seconds are, so in the last second the nanoseconds
  start over.
* `last_second_starts_over`: instants that adding takes back.
-/

set_option autoImplicit false

namespace LedgerClient.Timestamp

/-- The whole seconds of the exact sum are not more than the largest number of seconds. -/
def HasRoom (t : Timestamp) (n : UInt64) : Prop :=
  (t.totalNanos + n.toNat) / nanosPerSecond ≤ maxSeconds

instance (t : Timestamp) (n : UInt64) : Decidable (t.HasRoom n) :=
  inferInstanceAs (Decidable ((t.totalNanos + n.toNat) / nanosPerSecond ≤ maxSeconds))

/-- The sum as words compute it: the nanoseconds in 128 bits, the seconds to carry as far as 64 bits
with a sign go, and an addition of seconds that stops at both ends. -/
def plusNanosInWords (t : Timestamp) (n : UInt64) : Timestamp :=
  let total : BitVec 128 := BitVec.ofInt 128 t.nanos.toInt + BitVec.ofNat 128 n.toNat
  let second : BitVec 128 := BitVec.ofNat 128 nanosPerSecond
  let carry : Int := if ((total / second).toNat : Int) ≤ Int64.maxValue.toInt then
    ((total / second).toNat : Int) else Int64.maxValue.toInt
  ⟨Int64.ofIntClamp (t.seconds.toInt + carry), Int32.ofNat (total % second).toNat⟩

variable {t : Timestamp}

/-! ### The fields of a sum -/

/-- The seconds after an addition are those of the exact sum, or the most that there are. -/
theorem seconds_plusNanos (ht : t.Valid) (n : UInt64) :
    (t.plusNanos n).seconds.toInt = min ((t.totalNanos + n.toNat) / nanosPerSecond) maxSeconds := by
  obtain ⟨hseconds, hnanos, -⟩ := ht
  have hmax : maxSeconds = 9223372036854775807 := rfl
  -- The seconds with what the nanoseconds carry are the whole seconds of the sum.
  have hwhole : t.seconds.toInt + ((t.nanos.toInt.toNat + n.toNat) / nanosPerSecond : Nat) =
      (t.totalNanos + n.toNat) / nanosPerSecond := by
    unfold totalNanos nanosPerSecond
    omega
  have hnonneg : 0 ≤ (t.totalNanos + n.toNat) / nanosPerSecond := by
    rw [← hwhole]
    exact Int.add_nonneg hseconds (Int.natCast_nonneg _)
  -- Only the clamp at the last second is left, since nothing is below zero.
  show (Int64.ofInt (min _ maxSeconds)).toInt = _
  rw [hwhole]
  exact Int64.toInt_ofInt_of_le (by omega) (by omega)

/-- The nanoseconds after an addition are those of the exact sum, whether the seconds have room or
not. -/
theorem nanos_plusNanos (ht : t.Valid) (n : UInt64) :
    (t.plusNanos n).nanos.toInt = (t.totalNanos + n.toNat) % nanosPerSecond := by
  obtain ⟨-, hnanos, -⟩ := ht
  have hlt : (t.nanos.toInt.toNat + n.toNat) % nanosPerSecond < nanosPerSecond :=
    Nat.mod_lt _ (by decide)
  show (Int32.ofNat ((t.nanos.toInt.toNat + n.toNat) % nanosPerSecond)).toInt = _
  rw [toInt_ofNat_of_lt hlt]
  unfold totalNanos nanosPerSecond
  omega

/-- An addition leaves a valid instant, also without room. -/
theorem valid_plusNanos (ht : t.Valid) (n : UInt64) : (t.plusNanos n).Valid := by
  have hmax : maxSeconds = 9223372036854775807 := rfl
  have hseconds := seconds_plusNanos ht n
  have hnanos := nanos_plusNanos ht n
  obtain ⟨hseconds₀, hnanos₀, -⟩ := ht
  unfold totalNanos at hseconds hnanos
  unfold nanosPerSecond at *
  exact ⟨by omega, by omega, by unfold nanosPerSecond; omega⟩

/-! ### Exact sums -/

/-- With room for it, an addition is exact. -/
theorem totalNanos_plusNanos (ht : t.Valid) {n : UInt64} (h : t.HasRoom n) :
    (t.plusNanos n).totalNanos = t.totalNanos + n.toNat := by
  unfold HasRoom at h
  rw [totalNanos, seconds_plusNanos ht, nanos_plusNanos ht, Int.min_eq_left h]
  unfold nanosPerSecond
  omega

/-- The sum is the only valid instant of that number of nanoseconds. -/
theorem eq_plusNanos_iff (ht : t.Valid) {n : UInt64} (h : t.HasRoom n) (u : Timestamp) :
    u = t.plusNanos n ↔ u.Valid ∧ u.totalNanos = t.totalNanos + n.toNat := by
  have hvalid := valid_plusNanos ht n
  have htotal := totalNanos_plusNanos ht h
  constructor
  · rintro rfl
    exact ⟨hvalid, htotal⟩
  · rintro ⟨hu, hsum⟩
    exact eq_of_totalNanos_eq hu hvalid (hsum.trans htotal.symm)

/-- Without room, the seconds stop at the last one. -/
theorem seconds_plusNanos_of_not_hasRoom (ht : t.Valid) {n : UInt64} (h : ¬ t.HasRoom n) :
    (t.plusNanos n).seconds = Int64.maxValue := by
  have hmax : maxSeconds = Int64.maxValue.toInt := rfl
  unfold HasRoom at h
  rw [← Int64.toInt_inj, seconds_plusNanos ht, ← hmax]
  omega

/-- Adding nothing changes nothing. -/
theorem plusNanos_zero (ht : t.Valid) : t.plusNanos 0 = t := by
  have hle : t.seconds.toInt ≤ maxSeconds := t.seconds.toInt_le
  have htotal : t.totalNanos + (0 : UInt64).toNat = t.totalNanos := Int.add_zero _
  refine eq_of_toInt_eq ?_ ?_
  · rw [seconds_plusNanos ht, htotal, ht.div_totalNanos, Int.min_eq_left hle]
  · rw [nanos_plusNanos ht, htotal, ht.mod_totalNanos]

/-- What the first sum carries and what it leaves over are both carried on by the second one, and
seconds that are held once are held by every further sum. -/
theorem plusNanos_plusNanos (ht : t.Valid) {a b : UInt64} (h : a.toNat + b.toNat < UInt64.size) :
    (t.plusNanos a).plusNanos b = t.plusNanos (a + b) := by
  have ha := valid_plusNanos ht a
  have hsum : (a + b).toNat = a.toNat + b.toNat := by
    rw [UInt64.toNat_add]
    exact Nat.mod_eq_of_lt h
  refine eq_of_toInt_eq ?_ ?_
  · -- If the first sum holds its seconds, the second one holds them too, and the remainders go on.
    rw [seconds_plusNanos ha, seconds_plusNanos ht, totalNanos, seconds_plusNanos ht,
      nanos_plusNanos ht, hsum]
    unfold nanosPerSecond
    omega
  · -- The seconds have no part in the remainders, so these go on in any case.
    rw [nanos_plusNanos ha, nanos_plusNanos ht, totalNanos, nanos_plusNanos ht, hsum]
    unfold nanosPerSecond
    omega

/-! ### The sum in words -/

/-- A number that is not negative is only clamped from above. -/
theorem ofIntClamp_of_nonneg {n : Int} (h : 0 ≤ n) :
    Int64.ofIntClamp n = Int64.ofInt (min n Int64.maxValue.toInt) := by
  have hmin : Int64.minValue.toInt ≤ n := Int.le_trans (by decide) h
  by_cases hle : n ≤ Int64.maxValue.toInt
  · have hlt : n < 2 ^ 63 := by
      rw [Int64.toInt_maxValue] at hle
      omega
    rw [← Int64.toInt_inj, Int.min_eq_left hle, Int64.toInt_ofIntClamp hmin hle,
      Int64.toInt_ofInt_of_le (by omega) hlt]
  · rw [Int.min_eq_right (by omega), Int64.ofInt_toInt, Int64.ofIntClamp, dif_pos hmin, dif_neg hle]

/-- 128 bits have room for the nanoseconds, and 64 bits for the seconds to carry. -/
theorem plusNanosInWords_eq (ht : t.Valid) (n : UInt64) : t.plusNanosInWords n = t.plusNanos n := by
  obtain ⟨hseconds, hnanos, hlt⟩ := ht
  have hn : n.toNat < 18446744073709551616 := n.toNat_lt_size
  have hsecond : (BitVec.ofNat 128 nanosPerSecond).toNat = nanosPerSecond := rfl
  -- The sum is less than 2 ^ 64 and a second, so nothing is lost in 128 bits.
  have htotal : (BitVec.ofInt 128 t.nanos.toInt + BitVec.ofNat 128 n.toNat).toNat =
      t.nanos.toInt.toNat + n.toNat := by
    rw [BitVec.toNat_add, BitVec.toNat_ofInt, BitVec.toNat_ofNat]
    unfold nanosPerSecond at hlt
    omega
  -- There are fewer than 2 ^ 35 whole seconds to carry.
  have hcarry : (((t.nanos.toInt.toNat + n.toNat) / nanosPerSecond : Nat) : Int) ≤
      Int64.maxValue.toInt := by
    rw [Int64.toInt_maxValue]
    unfold nanosPerSecond at *
    omega
  unfold plusNanosInWords plusNanos
  simp only [BitVec.toNat_udiv, BitVec.toNat_umod, hsecond, htotal]
  rw [if_pos hcarry, ofIntClamp_of_nonneg (Int.add_nonneg hseconds (Int.natCast_nonneg _))]
  rfl

/-- A valid instant. Whatever is added, the sum is valid. If the whole seconds of the exact sum have
room, it is the one valid instant of that number of nanoseconds, and if not, its seconds are the
largest number there is. Words of 128 and of 64 bits compute it. Adding nothing changes nothing, and
adding one number and then another is adding both at once, wherever the seconds stop. -/
theorem sums_exact {t : Timestamp} (ht : t.Valid) :
    (∀ n : UInt64, (t.plusNanos n).Valid ∧
      (t.HasRoom n → ∀ u : Timestamp,
        u = t.plusNanos n ↔ u.Valid ∧ u.totalNanos = t.totalNanos + n.toNat) ∧
      (¬ t.HasRoom n → (t.plusNanos n).seconds = Int64.maxValue) ∧
      t.plusNanosInWords n = t.plusNanos n) ∧
    t.plusNanos 0 = t ∧
    ∀ a b : UInt64, a.toNat + b.toNat < UInt64.size →
      (t.plusNanos a).plusNanos b = t.plusNanos (a + b) := by
  refine ⟨fun n => ?_, plusNanos_zero ht, fun a b h => plusNanos_plusNanos ht h⟩
  exact ⟨valid_plusNanos ht n, eq_plusNanos_iff ht, seconds_plusNanos_of_not_hasRoom ht,
    plusNanosInWords_eq ht n⟩

/-- The largest instant. -/
def lastInstant : Timestamp :=
  ⟨Int64.maxValue, 999999999⟩

/-- Two sums of which neither has room, and the sum of both numbers. -/
theorem sums_exact_without_room :
    lastInstant.Valid ∧ ¬ lastInstant.HasRoom 2 ∧ ¬ lastInstant.HasRoom 1999999999 ∧
      (lastInstant.plusNanos 2).seconds = Int64.maxValue ∧
      (lastInstant.plusNanos 2).plusNanos 1999999999 = lastInstant.plusNanos (2 + 1999999999) ∧
      (lastInstant.plusNanos (2 + 1999999999)) = ⟨Int64.maxValue, 0⟩ := by
  have hvalid : lastInstant.Valid := by decide
  have hroom : ¬ lastInstant.HasRoom 2 := by decide
  obtain ⟨hsums, -, hadditive⟩ := sums_exact hvalid
  exact ⟨hvalid, hroom, by decide, (hsums 2).2.2.1 hroom, hadditive 2 1999999999 (by decide),
    by decide⟩

/-! ### Which sums are in order -/

variable {a b : UInt64}

/-- Where there is room for more, there is room for less. -/
theorem HasRoom.of_le (h : t.HasRoom b) (hab : a ≤ b) : t.HasRoom a := by
  have hle : a.toNat ≤ b.toNat := UInt64.le_iff_toNat_le.1 hab
  unfold HasRoom at *
  unfold nanosPerSecond at *
  omega

/-- The seconds do not go back, as they are held at the end. -/
theorem seconds_plusNanos_mono (ht : t.Valid) (hab : a ≤ b) :
    (t.plusNanos a).seconds ≤ (t.plusNanos b).seconds := by
  have hle : a.toNat ≤ b.toNat := UInt64.le_iff_toNat_le.1 hab
  rw [Int64.le_iff_toInt_le, seconds_plusNanos ht, seconds_plusNanos ht]
  unfold nanosPerSecond
  omega

/-- Adding more leads to an instant that is not earlier, unless the larger sum has no room and the
smaller one is already in the last second: there it depends on the remainders. -/
theorem plusNanos_le_plusNanos_iff (ht : t.Valid) (hab : a ≤ b) :
    t.plusNanos a ≤ t.plusNanos b ↔ t.HasRoom b ∨
      (t.totalNanos + a.toNat) / nanosPerSecond < maxSeconds ∨
      (t.totalNanos + a.toNat) % nanosPerSecond ≤ (t.totalNanos + b.toNat) % nanosPerSecond := by
  have hle : a.toNat ≤ b.toNat := UInt64.le_iff_toNat_le.1 hab
  -- With both quotients below the limit this is the order of quotient and remainder; with both at
  -- it, the seconds are equal and the remainders decide.
  rw [le_iff, seconds_plusNanos ht, seconds_plusNanos ht, nanos_plusNanos ht, nanos_plusNanos ht,
    HasRoom]
  unfold nanosPerSecond
  omega

/-- Adding nothing is the smaller sum. -/
theorem le_plusNanos_iff (ht : t.Valid) :
    t ≤ t.plusNanos a ↔ t.HasRoom a ∨ t.seconds.toInt < maxSeconds ∨
      t.nanos.toInt ≤ (t.totalNanos + a.toNat) % nanosPerSecond := by
  have hzero : (0 : UInt64) ≤ a := UInt64.le_iff_toNat_le.2 (Nat.zero_le _)
  have htotal : t.totalNanos + (0 : UInt64).toNat = t.totalNanos := Int.add_zero _
  have h := plusNanos_le_plusNanos_iff ht hzero
  rwa [plusNanos_zero ht, htotal, ht.div_totalNanos, ht.mod_totalNanos] at h

/-- Exact sums are in the order of what is added. -/
theorem HasRoom.ordered (ht : t.Valid) (hab : a ≤ b) (h : t.HasRoom b) :
    t ≤ t.plusNanos a ∧ t.plusNanos a ≤ t.plusNanos b := by
  have hle : a.toNat ≤ b.toNat := UInt64.le_iff_toNat_le.1 hab
  have ha := valid_plusNanos ht a
  have hb := valid_plusNanos ht b
  rw [le_iff_totalNanos ht ha, le_iff_totalNanos ha hb, totalNanos_plusNanos ht (h.of_le hab),
    totalNanos_plusNanos ht h]
  omega

/-- The largest number that can be added. -/
def longest : UInt64 := 18446744073709551615

/-- No addition is longer than the longest one, which is all that 64 bits can say. -/
theorem le_longest (n : UInt64) : n ≤ longest :=
  UInt64.le_iff_toNat_le.2 (Nat.le_of_lt_succ n.toNat_lt_size)

/-- If some sum has no room, the smallest such sum is at the beginning of the last second, and the
one before it at the end of that second. -/
theorem exists_going_back (ht : t.Valid) (h : ¬ t.HasRoom longest) :
    ∃ a b : UInt64, a ≤ b ∧ ¬ t.plusNanos a ≤ t.plusNanos b := by
  have hmax : maxSeconds = 9223372036854775807 := rfl
  have hlongest : longest.toNat = 18446744073709551615 := rfl
  have hle : t.seconds.toInt ≤ maxSeconds := t.seconds.toInt_le
  obtain ⟨-, hnanos, hlt⟩ := id ht
  -- What is missing to the first second that is not there.
  obtain ⟨k, hk⟩ : ∃ k : Nat, t.totalNanos + (k + 1 : Nat) = (maxSeconds + 1) * nanosPerSecond := by
    refine ⟨((maxSeconds + 1) * nanosPerSecond - t.totalNanos - 1).toNat, ?_⟩
    unfold totalNanos nanosPerSecond at *
    omega
  -- It has room in 64 bits: the longest addition already goes beyond it.
  have hfits : k + 1 < UInt64.size := by
    unfold HasRoom at h
    unfold nanosPerSecond at h hk
    unfold UInt64.size
    omega
  have ha : (UInt64.ofNat k).toNat = k := UInt64.toNat_ofNat_of_lt' (by omega)
  have hb : (UInt64.ofNat (k + 1)).toNat = k + 1 := UInt64.toNat_ofNat_of_lt' hfits
  have hab : UInt64.ofNat k ≤ UInt64.ofNat (k + 1) := by
    rw [UInt64.le_iff_toNat_le, ha, hb]
    exact Nat.le_succ k
  -- The first sum has room and the second has not, and the remainder of the second is zero.
  refine ⟨_, _, hab, ?_⟩
  rw [plusNanos_le_plusNanos_iff ht hab, HasRoom, ha, hb]
  unfold nanosPerSecond at *
  omega

/-- A valid instant. Adding more never takes the seconds back, and as long as the larger sum has
room, adding does not lead to an earlier instant. Without room it may, in the last second: there the
nanoseconds start over. So adding never goes back, whatever is added, exactly if there is room for
the largest number that can be added. -/
theorem adding_never_goes_back_iff {t : Timestamp} (ht : t.Valid) :
    (∀ a b : UInt64, a ≤ b →
      (t.plusNanos a).seconds ≤ (t.plusNanos b).seconds ∧
      (t.HasRoom b → t ≤ t.plusNanos a ∧ t.plusNanos a ≤ t.plusNanos b) ∧
      (t ≤ t.plusNanos a ↔ t.HasRoom a ∨ t.seconds.toInt < maxSeconds ∨
        t.nanos.toInt ≤ (t.totalNanos + a.toNat) % nanosPerSecond) ∧
      (t.plusNanos a ≤ t.plusNanos b ↔ t.HasRoom b ∨
        (t.totalNanos + a.toNat) / nanosPerSecond < maxSeconds ∨
        (t.totalNanos + a.toNat) % nanosPerSecond ≤ (t.totalNanos + b.toNat) % nanosPerSecond)) ∧
    ((∀ a b : UInt64, a ≤ b → t ≤ t.plusNanos a ∧ t.plusNanos a ≤ t.plusNanos b) ↔
      t.HasRoom longest) := by
  refine ⟨fun a b hab => ?_, fun hordered => ?_, fun hroom a b hab => ?_⟩
  · exact ⟨seconds_plusNanos_mono ht hab, HasRoom.ordered ht hab, le_plusNanos_iff ht,
      plusNanos_le_plusNanos_iff ht hab⟩
  · by_cases hroom : t.HasRoom longest
    · exact hroom
    · obtain ⟨a, b, hab, hback⟩ := exists_going_back ht hroom
      exact absurd (hordered a b hab).2 hback
  · exact HasRoom.ordered ht hab (hroom.of_le (le_longest b))

/-- The last instant that has room for every number that can be added. -/
def lastRoomy : Timestamp :=
  ⟨9223372018408031734, 290448384⟩

/-- One nanosecond later there are sums that go back. -/
theorem adding_never_goes_back_iff_lastRoomy :
    lastRoomy.Valid ∧ (lastRoomy.plusNanos 1).Valid ∧
      (∀ a b : UInt64, a ≤ b →
        lastRoomy ≤ lastRoomy.plusNanos a ∧ lastRoomy.plusNanos a ≤ lastRoomy.plusNanos b) ∧
      ¬ ∀ a b : UInt64, a ≤ b → lastRoomy.plusNanos 1 ≤ (lastRoomy.plusNanos 1).plusNanos a ∧
        (lastRoomy.plusNanos 1).plusNanos a ≤ (lastRoomy.plusNanos 1).plusNanos b := by
  have hvalid : lastRoomy.Valid := by decide
  have hlater : (lastRoomy.plusNanos 1).Valid := by decide
  have hroom : lastRoomy.HasRoom longest := by decide
  have hnone : ¬ (lastRoomy.plusNanos 1).HasRoom longest := by decide
  refine ⟨hvalid, hlater, (adding_never_goes_back_iff hvalid).2.2 hroom, fun hordered => ?_⟩
  exact hnone ((adding_never_goes_back_iff hlater).2.1 hordered)

/-- From the largest instant a nanosecond leads almost a second back. So it does from the end of the
last second when more is added to an earlier instant. -/
theorem last_second_starts_over :
    lastInstant.Valid ∧ lastInstant.plusNanos 1 = ⟨Int64.maxValue, 0⟩ ∧
      ¬ lastInstant ≤ lastInstant.plusNanos 1 ∧
      (Timestamp.mk Int64.maxValue 0).plusNanos 999999999 = lastInstant ∧
      (Timestamp.mk Int64.maxValue 0).plusNanos 1000000000 = ⟨Int64.maxValue, 0⟩ ∧
      ¬ lastInstant ≤ ⟨Int64.maxValue, 0⟩ := by
  decide

end LedgerClient.Timestamp
