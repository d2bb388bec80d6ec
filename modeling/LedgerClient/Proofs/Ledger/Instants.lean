import LedgerClient.Ledger.Timestamp

/-!
# `LedgerClient.Proofs.Ledger.Instants`: instants as numbers of nanoseconds

The fields of a valid instant are the quotient and the remainder of its
number of nanoseconds (`Valid.div_totalNanos`, `Valid.mod_totalNanos`).
So two valid instants compare as their numbers do (`le_iff_totalNanos`,
`lt_iff_totalNanos`), and are equal if the numbers are
(`eq_of_totalNanos_eq`). In the other direction every number of 64 bits is
the number of an instant: `valid_ofNanos` and `totalNanos_ofNanos`.
-/

set_option autoImplicit false

namespace LedgerClient.Timestamp

instance : LE Timestamp := ⟨fun t u => (t.compare u).isLE⟩

instance : LT Timestamp := ⟨fun t u => t.compare u = .lt⟩

instance (t u : Timestamp) : Decidable (t ≤ u) :=
  inferInstanceAs (Decidable ((t.compare u).isLE = true))

instance (t u : Timestamp) : Decidable (t < u) :=
  inferInstanceAs (Decidable (t.compare u = .lt))

variable {t u : Timestamp} {n : Nat}

/-! ### The order -/

/-- The order of instants is that of their seconds and then of their nanoseconds, as numbers. -/
theorem le_iff : t ≤ u ↔ t.seconds.toInt < u.seconds.toInt ∨
    t.seconds.toInt = u.seconds.toInt ∧ t.nanos.toInt ≤ u.nanos.toInt := by
  show (t.compare u).isLE = true ↔ _
  rw [compare, Ordering.isLE_then_iff_or, Int.compare_eq_lt, Int.compare_eq_eq, Int.isLE_compare]

/-- So is the strict order. -/
theorem lt_iff : t < u ↔ t.seconds.toInt < u.seconds.toInt ∨
    t.seconds.toInt = u.seconds.toInt ∧ t.nanos.toInt < u.nanos.toInt := by
  show t.compare u = .lt ↔ _
  rw [compare, Ordering.then_eq_lt, Int.compare_eq_lt, Int.compare_eq_eq, Int.compare_eq_lt]

/-- An instant is its two numbers. -/
theorem eq_of_toInt_eq (hseconds : t.seconds.toInt = u.seconds.toInt)
    (hnanos : t.nanos.toInt = u.nanos.toInt) : t = u := by
  cases t
  cases u
  cases Int64.toInt_inj.1 hseconds
  cases Int32.toInt_inj.1 hnanos
  rfl

/-! ### The number of nanoseconds -/

/-- The seconds of a valid instant are the whole ones of its nanoseconds in all. -/
theorem Valid.div_totalNanos (h : t.Valid) : t.totalNanos / nanosPerSecond = t.seconds.toInt := by
  obtain ⟨-, hnanos, hlt⟩ := h
  unfold totalNanos
  unfold nanosPerSecond at *
  omega

/-- Its nanoseconds are what remains. -/
theorem Valid.mod_totalNanos (h : t.Valid) : t.totalNanos % nanosPerSecond = t.nanos.toInt := by
  obtain ⟨-, hnanos, hlt⟩ := h
  unfold totalNanos
  unfold nanosPerSecond at *
  omega

/-- Less than a second of nanoseconds does not make up for a second. -/
theorem le_iff_totalNanos (ht : t.Valid) (hu : u.Valid) : t ≤ u ↔ t.totalNanos ≤ u.totalNanos := by
  rw [le_iff, ← ht.div_totalNanos, ← ht.mod_totalNanos, ← hu.div_totalNanos, ← hu.mod_totalNanos]
  unfold nanosPerSecond
  omega

/-- The strict order of valid instants is that of their nanoseconds in all. -/
theorem lt_iff_totalNanos (ht : t.Valid) (hu : u.Valid) : t < u ↔ t.totalNanos < u.totalNanos := by
  rw [lt_iff, ← ht.div_totalNanos, ← ht.mod_totalNanos, ← hu.div_totalNanos, ← hu.mod_totalNanos]
  unfold nanosPerSecond
  omega

/-- Valid instants with as many nanoseconds in all are the same. -/
theorem eq_of_totalNanos_eq (ht : t.Valid) (hu : u.Valid) (h : t.totalNanos = u.totalNanos) :
    t = u := by
  refine eq_of_toInt_eq ?_ ?_
  · rw [← ht.div_totalNanos, ← hu.div_totalNanos, h]
  · rw [← ht.mod_totalNanos, ← hu.mod_totalNanos, h]

/-! ### The instant of a number of nanoseconds -/

/-- Less than a second of nanoseconds are that many nanoseconds. -/
theorem toInt_ofNat_of_lt (h : n < nanosPerSecond) : (Int32.ofNat n).toInt = n := by
  unfold nanosPerSecond at h
  exact Int32.toInt_ofNat_of_lt (by omega)

/-- An instant that is made of nanoseconds has those that are no whole second. -/
theorem nanos_ofNanos (n : Nat) : (ofNanos n).nanos.toInt = (n % nanosPerSecond : Nat) :=
  toInt_ofNat_of_lt (Nat.mod_lt _ (by decide))

/-- It has the whole seconds, which a number of 64 bits has room for. -/
theorem seconds_ofNanos (h : n < UInt64.size) :
    (ofNanos n).seconds.toInt = (n / nanosPerSecond : Nat) := by
  unfold UInt64.size at h
  refine Int64.toInt_ofNat_of_lt ?_
  unfold nanosPerSecond
  omega

/-- An instant that is made of nanoseconds is valid. -/
theorem valid_ofNanos (h : n < UInt64.size) : (ofNanos n).Valid := by
  have hlt : n % nanosPerSecond < nanosPerSecond := Nat.mod_lt _ (by decide)
  refine ⟨?_, ?_, ?_⟩
  · rw [seconds_ofNanos h]
    exact Int.natCast_nonneg _
  · rw [nanos_ofNanos]
    exact Int.natCast_nonneg _
  · rw [nanos_ofNanos]
    exact Int.ofNat_lt.2 hlt

/-- It has as many nanoseconds as it was made of. -/
theorem totalNanos_ofNanos (h : n < UInt64.size) : (ofNanos n).totalNanos = n := by
  rw [totalNanos, seconds_ofNanos h, nanos_ofNanos]
  unfold nanosPerSecond
  omega

end LedgerClient.Timestamp
