import LedgerClient.Ledger.TimestampReader
import LedgerClient.Proofs.Ledger.Instants
import LedgerClient.Proofs.Text.FixedPoint
import Mathlib.Tactic.FieldSimp
import Mathlib.Tactic.NormNum

/-!
# `LedgerClient.Proofs.Ledger.TimestampText`: what the text of an instant denotes

The text of an instant is a decimal number (`Text.Decimal.FixedPoint`).
Its reader takes the sign together with the whole part, and the digits
behind the point by themselves (`fields?_eq_some_iff`). So the fields of
an instant that is read are the whole part and the digits filled up to
nine (`parse_eq_ok_iff`), and the instant is the number without its sign
(`value_of_parse`). A negative number is refused for its seconds, unless
it has none: the sign of `-0.5` is lost.

* `text_denotes`: which texts are read, and as which instant. For a number
  that is not negative it is the instant of that number, and a larger
  number is a later instant.
* `negative_half_read`: a text that denotes a negative number and is read
  all the same.
* `parse_text`: what is written for an instant is read as that instant.
-/

set_option autoImplicit false

namespace LedgerClient.Timestamp

open Text.Decimal

/-- The number of seconds since the epoch, with its fraction. -/
def value (t : Timestamp) : ℚ :=
  t.seconds.toInt + t.nanos.toInt / nanosPerSecond

/-! ### Instants compare by their values -/

/-- The value of an instant in seconds is a quotient of whole numbers. -/
theorem value_eq (t : Timestamp) : t.value = (t.totalNanos : ℚ) / nanosPerSecond := by
  have hpos : (nanosPerSecond : ℚ) ≠ 0 := by norm_num [nanosPerSecond]
  rw [value, totalNanos]
  push_cast
  field_simp

/-- The order of valid instants is that of their values. -/
theorem compare_eq_lt_iff {t u : Timestamp} (ht : t.Valid) (hu : u.Valid) :
    t.compare u = .lt ↔ t.value < u.value := by
  have hpos : (0 : ℚ) < nanosPerSecond := by norm_num [nanosPerSecond]
  rw [t.value_eq, u.value_eq, div_lt_div_iff_of_pos_right hpos, Int.cast_lt]
  exact lt_iff_totalNanos ht hu

/-! ### From the characters to the fields -/

/-- Two numbers make an instant if that is valid, and are then what it consists of. -/
theorem make_eq_ok_iff {seconds : Int64} {nanos : Int32} {t : Timestamp} :
    make seconds nanos = .ok t ↔ t = ⟨seconds, nanos⟩ ∧ t.Valid := by
  unfold make
  constructor
  · intro h
    split at h
    · cases h
      exact ⟨rfl, ‹_›⟩
    · cases h
  · rintro ⟨rfl, hvalid⟩
    rw [if_pos hvalid]

/-- A fraction of at most nine digits is read as if zeros were behind it. -/
theorem fractionNanos?_eq_some_iff {ds : List Char} {n : Nat} :
    fractionNanos? ds = some n ↔ ds.length ≤ 9 ∧ (∀ d ∈ ds, isDigit d = true) ∧
      n = denoted ds * 10 ^ (9 - ds.length) := by
  -- The zeros only move the digits to their places.
  have hvalue : Text.Decimal.value (ds ++ List.replicate (9 - ds.length) '0') =
      denoted ds * 10 ^ (9 - ds.length) := by
    rw [value_append, value_zeros, List.length_replicate, value_eq_denoted, Nat.add_zero]
  unfold fractionNanos?
  by_cases h : ds.length ≤ 9 ∧ ds.all isDigit = true
  · rw [if_pos h, hvalue, Option.some.injEq]
    constructor
    · intro heq
      exact ⟨h.1, List.all_eq_true.1 h.2, heq.symm⟩
    · rintro ⟨-, -, heq⟩
      exact heq.symm
  · rw [if_neg h]
    constructor
    · intro hnone
      cases hnone
    · rintro ⟨hlength, hdigits, -⟩
      exact absurd ⟨hlength, List.all_eq_true.2 hdigits⟩ h

/-- The nanoseconds that are read are less than a second. -/
theorem placesNanos_lt {n : FixedPoint} (h : n.places.length ≤ 9) :
    denoted n.places * 10 ^ (9 - n.places.length) < nanosPerSecond := by
  have hlt : denoted n.places < 10 ^ n.places.length := by
    rw [← value_eq_denoted]
    exact value_lt fun d hd => n.isDigit_of_mem_places hd
  calc denoted n.places * 10 ^ (9 - n.places.length)
      < 10 ^ n.places.length * 10 ^ (9 - n.places.length) :=
        Nat.mul_lt_mul_of_pos_right hlt (by positivity)
    _ = 10 ^ 9 := by rw [← pow_add, Nat.add_sub_cancel' h]
    _ = nanosPerSecond := by norm_num [nanosPerSecond]

/-- The fields of a text are read from the two sides of its point. -/
theorem fields?_eq_some_iff_sides {cs : List Char} {seconds : Int64} {nanos : Int32} :
    fields? cs = some (seconds, nanos) ↔ ∃ k, fractionNanos? (sides cs).2 = some k ∧
      int64? (sides cs).1 = some seconds ∧ nanos = Int32.ofNat k := by
  have hbind : fields? cs = (fractionNanos? (sides cs).2).bind fun k =>
      (int64? (sides cs).1).bind fun seconds => some (seconds, Int32.ofNat k) := rfl
  rw [hbind]
  simp only [Option.bind_eq_some_iff, Option.some.injEq, Prod.mk.injEq]
  constructor
  · rintro ⟨k, hk, seconds', hseconds, rfl, rfl⟩
    exact ⟨k, hk, hseconds, rfl⟩
  · rintro ⟨k, hk, hseconds, rfl⟩
    exact ⟨k, hk, seconds, hseconds, rfl, rfl⟩

/-- The fields of a text are those of the decimal number that it is. -/
theorem fields?_eq_some_iff {cs : List Char} {seconds : Int64} {nanos : Int32} :
    fields? cs = some (seconds, nanos) ↔ ∃ n : FixedPoint, n.chars = cs ∧
      n.places.length ≤ 9 ∧ seconds.toInt = n.sign.apply (denoted n.whole : Int) ∧
      nanos = Int32.ofNat (denoted n.places * 10 ^ (9 - n.places.length)) := by
  simp only [fields?_eq_some_iff_sides, fractionNanos?_eq_some_iff, int64?_eq_some_iff]
  constructor
  · -- The two sides of the point make a decimal number again.
    rintro ⟨k, ⟨hlength, hdigits, rfl⟩, hsigned, rfl⟩
    obtain ⟨n, rfl, hwhole⟩ := FixedPoint.exists_of_sides hsigned hdigits
    rw [n.sides_chars] at hlength
    rw [n.sides_chars]
    exact ⟨n, rfl, hlength, hwhole.symm, rfl⟩
  · rintro ⟨n, rfl, hlength, hseconds, rfl⟩
    rw [n.sides_chars]
    exact ⟨_, ⟨hlength, fun d hd => n.isDigit_of_mem_places hd, rfl⟩,
      ⟨n.sign, n.whole, rfl, n.whole_numeral, hseconds⟩, rfl⟩

/-! ### From the fields to the instant -/

/-- A text is read exactly if it is a decimal number with at most nine digits behind the point and
no negative seconds. The fields of the instant are the whole part and the nanoseconds behind it. -/
theorem parse_eq_ok_iff {text : String} {t : Timestamp} :
    parse text = .ok t ↔ ∃ n : FixedPoint, n.chars = text.toList ∧ n.places.length ≤ 9 ∧
      (0 ≤ n.value ∨ denoted n.whole = 0) ∧ t.seconds.toInt = denoted n.whole ∧
      t.nanos.toInt = (denoted n.places * 10 ^ (9 - n.places.length) : Nat) := by
  unfold parse
  constructor
  · intro h
    cases hfields : fields? text.toList with
    | none => simp [hfields] at h
    | some fields =>
      obtain ⟨seconds, nanos⟩ := fields
      rw [hfields] at h
      obtain ⟨rfl, hvalid⟩ := make_eq_ok_iff.1 h
      obtain ⟨n, hchars, hlength, hseconds, rfl⟩ := fields?_eq_some_iff.1 hfields
      -- The check of the seconds is one of the sign and the whole part.
      have hnonneg : 0 ≤ n.sign.apply (denoted n.whole : Int) := hseconds ▸ hvalid.1
      refine ⟨n, hchars, hlength, n.sign_apply_whole_nonneg_iff.1 hnonneg, ?_, ?_⟩
      · exact hseconds.trans (Sign.apply_eq_of_nonneg hnonneg)
      · exact toInt_ofNat_of_lt (placesNanos_lt hlength)
  · -- The other way, the number is the whole part with its sign, which is not seen if that is zero.
    rintro ⟨n, hchars, hlength, hsign, hseconds, hnanos⟩
    have hnonneg := n.sign_apply_whole_nonneg_iff.2 hsign
    have hlt := placesNanos_lt hlength
    have hfields : fields? text.toList = some (t.seconds, t.nanos) := by
      refine fields?_eq_some_iff.2 ⟨n, hchars, hlength, ?_, ?_⟩
      · rw [hseconds, Sign.apply_eq_of_nonneg hnonneg]
      · rw [← Int32.toInt_inj, hnanos, toInt_ofNat_of_lt hlt]
    rw [hfields]
    exact make_eq_ok_iff.2 ⟨rfl, by omega, by omega, by omega⟩

/-- The instant that is read is the number without its sign. -/
theorem value_of_parse {text : String} {t : Timestamp} {n : FixedPoint}
    (hchars : n.chars = text.toList) (h : parse text = .ok t) : t.value = n.magnitude := by
  obtain ⟨m, hm, hlength, -, hseconds, hnanos⟩ := parse_eq_ok_iff.1 h
  cases FixedPoint.eq_of_chars_eq (hm.trans hchars.symm)
  -- Nine places are the ones that are written and the zeros behind them.
  have hpower : (10 : ℚ) ^ 9 = 10 ^ n.places.length * 10 ^ (9 - n.places.length) := by
    rw [← pow_add, Nat.add_sub_cancel' hlength]
  have hsecond : (nanosPerSecond : ℚ) = 10 ^ 9 := by norm_num [nanosPerSecond]
  rw [value, FixedPoint.magnitude, hseconds, hnanos, hsecond, hpower]
  push_cast
  field_simp

/-- What is read is an instant. -/
theorem valid_of_parse {text : String} {t : Timestamp} (h : parse text = .ok t) : t.Valid := by
  obtain ⟨n, -, hlength, -, hseconds, hnanos⟩ := parse_eq_ok_iff.1 h
  have hlt := placesNanos_lt hlength
  exact ⟨by omega, by omega, by omega⟩

/-- What is written for an instant is read as that instant. -/
theorem parse_text {t : Timestamp} (h : t.Valid) : parse t.text = .ok t := by
  obtain ⟨hseconds, hnanos, hlt⟩ := h
  have hwidth : t.nanos.toInt.toNat < 10 ^ 9 := by
    unfold nanosPerSecond at hlt
    omega
  have hlength : (padded 9 t.nanos.toInt.toNat).length = 9 := length_padded (by omega) hwidth
  refine parse_eq_ok_iff.2 ⟨⟨.none, digits t.seconds.toInt.natAbs,
    some (padded 9 t.nanos.toInt.toNat), numeral_digits _, ?_⟩, ?_, ?_, .inl ?_, ?_, ?_⟩
  · intro ds hds d hd
    cases hds
    exact isDigit_of_mem_padded hd
  · -- The whole part, the point, and nine places are the text of the instant.
    rw [text, integer, if_neg (by omega), natural, String.toList_append, String.toList_append,
      String.toList_ofList, String.toList_ofList]
    simp [FixedPoint.chars, Sign.text]
  · exact Nat.le_of_eq hlength
  · exact FixedPoint.magnitude_nonneg _
  · show _ = ((denoted (digits _) : Nat) : Int)
    rw [← value_eq_denoted, value_digits]
    omega
  · -- Nine places need no more zeros.
    show _ = ((denoted (padded 9 _) * 10 ^ (9 - (padded 9 _).length) : Nat) : Int)
    rw [← value_eq_denoted, value_padded, hlength]
    omega

/-! ### The number that a text denotes -/

/-- A text is read exactly if it is a decimal number with at most nine digits behind the point and
a whole part in range, and the number is not negative or has a whole part of zero. -/
theorem exists_parse_eq_ok_iff {text : String} :
    (∃ t, parse text = .ok t) ↔ ∃ n : FixedPoint, n.chars = text.toList ∧
      n.places.length ≤ 9 ∧ (denoted n.whole : Int) ≤ maxSeconds ∧
      (0 ≤ n.value ∨ denoted n.whole = 0) := by
  have hmax : maxSeconds = 2 ^ 63 - 1 := rfl
  constructor
  · rintro ⟨t, h⟩
    obtain ⟨n, hchars, hlength, hsign, hseconds, -⟩ := parse_eq_ok_iff.1 h
    exact ⟨n, hchars, hlength, hseconds ▸ t.seconds.toInt_le, hsign⟩
  · rintro ⟨n, hchars, hlength, hrange, hsign⟩
    refine ⟨⟨Int64.ofNat (denoted n.whole), Int32.ofNat _⟩,
      parse_eq_ok_iff.2 ⟨n, hchars, hlength, hsign, ?_, toInt_ofNat_of_lt (placesNanos_lt hlength)⟩⟩
    exact Int64.toInt_ofNat_of_lt (by omega)

/-- Every text. It is read exactly if it is a decimal number, with an optional sign and at most nine
digits behind the point, of which the whole part is in range, and which is not negative or has a
whole part of zero. The instant is valid, and is the number without its sign: for a number that is
not negative, the number itself. Of two such numbers, the smaller one is the earlier instant. -/
theorem text_denotes (text : String) :
    ((∃ t, parse text = .ok t) ↔ ∃ n : FixedPoint, n.chars = text.toList ∧
      n.places.length ≤ 9 ∧ (denoted n.whole : Int) ≤ maxSeconds ∧
      (0 ≤ n.value ∨ denoted n.whole = 0)) ∧
    (∀ (t : Timestamp) (n : FixedPoint), parse text = .ok t → n.chars = text.toList →
      t.Valid ∧ t.value = |n.value| ∧ (0 ≤ n.value → t.value = n.value)) ∧
    (∀ (other : String) (t u : Timestamp) (m n : FixedPoint),
      parse text = .ok t → parse other = .ok u → m.chars = text.toList → n.chars = other.toList →
      0 ≤ m.value → 0 ≤ n.value → (t.compare u = .lt ↔ m.value < n.value)) := by
  refine ⟨exists_parse_eq_ok_iff, ?_, ?_⟩
  · intro t n h hchars
    have hvalue : t.value = |n.value| := by rw [value_of_parse hchars h, n.abs_value]
    refine ⟨valid_of_parse h, hvalue, fun hnonneg => ?_⟩
    rw [hvalue, abs_of_nonneg hnonneg]
  · intro other t u m n ht hu hm hn hmnonneg hnnonneg
    rw [compare_eq_lt_iff (valid_of_parse ht) (valid_of_parse hu), value_of_parse hm ht,
      value_of_parse hn hu, ← m.abs_value, ← n.abs_value, abs_of_nonneg hmnonneg,
      abs_of_nonneg hnnonneg]

/-- Minus a half, as it is written. -/
def negativeHalf : FixedPoint where
  sign := .minus
  whole := ['0']
  fraction := some ['5']
  whole_numeral := by
    refine ⟨List.cons_ne_nil _ _, fun c hc => ?_⟩
    rw [List.mem_singleton.1 hc]
    rfl
  fraction_digits := by
    intro ds hds d hd
    cases hds
    rw [List.mem_singleton.1 hd]
    rfl

/-- The text denotes minus a half, however it is taken to be a number, and is read as half a
second. -/
theorem negative_half_read :
    (∃ n : FixedPoint, n.chars = "-0.5".toList) ∧
      (∀ n : FixedPoint, n.chars = "-0.5".toList → n.value = -1 / 2) ∧
      parse "-0.5" = .ok ⟨0, 500000000⟩ := by
  refine ⟨⟨negativeHalf, by decide⟩, fun n hn => ?_, by decide⟩
  -- No other number is written in the same way.
  have hchars : n.chars = negativeHalf.chars := by
    rw [hn]
    decide
  have hwhole : denoted negativeHalf.whole = 0 := by decide
  have hplaces : denoted negativeHalf.places = 5 := by decide
  rw [FixedPoint.eq_of_chars_eq hchars]
  show -negativeHalf.magnitude = -1 / 2
  rw [FixedPoint.magnitude, hwhole, hplaces]
  norm_num [FixedPoint.places, negativeHalf]

end LedgerClient.Timestamp
