import LedgerClient.Proofs.Text.Cuts
import LedgerClient.Proofs.Text.Numerals
import Mathlib.Algebra.Order.Ring.Abs
import Mathlib.Data.Rat.Cast.Order
import Mathlib.Tactic.Linarith
import Mathlib.Tactic.Positivity

/-!
# `LedgerClient.Proofs.Text.FixedPoint`: decimal numbers as they are written

A `FixedPoint` is an optional sign, a numeral, and optionally a point and
more digits, of which there may be none. It denotes a rational number,
whatever the number of its digits.

A text is such a number in at most one way (`eq_of_chars_eq`): it is cut
at its point (`splitFirst_chars`), and the sign is told apart from the
numeral behind it (`sign_text_append_inj`).
-/

set_option autoImplicit false

namespace LedgerClient.Text.Decimal

/-- What is in front of the first point of a text, and what is behind it. Without a point, nothing
is behind it. -/
def sides (cs : List Char) : List Char × List Char :=
  (splitFirst '.' cs).getD (cs, [])

/-- A decimal number as it is written. There may be no digits behind the point. -/
structure FixedPoint where
  sign : Sign
  whole : List Char
  fraction : Option (List Char)
  whole_numeral : Numeral whole
  fraction_digits : ∀ ds ∈ fraction, ∀ d ∈ ds, isDigit d = true

namespace FixedPoint

variable (n : FixedPoint)

/-- The characters of a number. -/
def chars : List Char :=
  n.sign.text ++ n.whole ++ n.fraction.elim [] ('.' :: ·)

/-- The digits behind the point. -/
def places : List Char :=
  n.fraction.getD []

/-- What a number denotes but for its sign. -/
def magnitude : ℚ :=
  denoted n.whole + denoted n.places / 10 ^ n.places.length

/-- What a number denotes. -/
def value : ℚ :=
  n.sign.apply n.magnitude

/-- The places behind the point are digits. -/
theorem isDigit_of_mem_places {d : Char} (h : d ∈ n.places) : isDigit d = true := by
  unfold places at h
  cases hf : n.fraction with
  | none => simp [hf] at h
  | some ds => exact n.fraction_digits ds hf d (by simpa [hf] using h)

/-- The magnitude is without the sign. -/
theorem magnitude_nonneg : 0 ≤ n.magnitude := by
  unfold magnitude
  positivity

/-- Without its sign, a number is its magnitude. -/
theorem abs_value : |n.value| = n.magnitude := by
  have habs := abs_of_nonneg n.magnitude_nonneg
  unfold value
  cases n.sign with
  | minus => rw [Sign.apply, abs_neg, habs]
  | _ => exact habs

/-- A number that is not negative, or has nothing in front of its point, is one of which the whole
part is not negative when it is read with the sign. -/
theorem sign_apply_whole_nonneg_iff :
    0 ≤ n.sign.apply (denoted n.whole : Int) ↔ 0 ≤ n.value ∨ denoted n.whole = 0 := by
  have hplaces : 0 ≤ (denoted n.places : ℚ) / 10 ^ n.places.length := by positivity
  have hmagnitude := n.magnitude_nonneg
  unfold value
  -- Without a minus the two sides are the same. With one, only a whole part of zero is not
  -- negative.
  cases n.sign with
  | none => simp [Sign.apply, hmagnitude]
  | plus => simp [Sign.apply, hmagnitude]
  | minus =>
    show 0 ≤ -(denoted n.whole : Int) ↔ 0 ≤ -n.magnitude ∨ denoted n.whole = 0
    constructor
    · intro h
      exact .inr (by omega)
    · rintro (h | h)
      · -- A magnitude of zero has nothing in front of its point.
        have hwhole : (denoted n.whole : ℚ) ≤ 0 := by
          have hle : (denoted n.whole : ℚ) ≤ n.magnitude := le_add_of_nonneg_right hplaces
          linarith
        have hzero : denoted n.whole ≤ 0 := by exact_mod_cast hwhole
        omega
      · omega

/-- There is no point in front of the point. -/
theorem point_notMem : '.' ∉ n.sign.text ++ n.whole := by
  have hwhole : '.' ∉ n.whole := n.whole_numeral.notMem rfl
  cases n.sign <;> simp [Sign.text, hwhole]

/-- A number is cut at its point, if it has one. -/
theorem splitFirst_chars :
    splitFirst '.' n.chars = n.fraction.map fun ds => (n.sign.text ++ n.whole, ds) := by
  unfold chars
  cases n.fraction with
  | none =>
    rw [Option.elim_none, List.append_nil]
    exact splitFirst_eq_none_iff.2 n.point_notMem
  | some ds => exact splitFirst_append n.point_notMem ds

/-- In front of the point are the sign and the whole part, and behind it the other digits. -/
theorem sides_chars : sides n.chars = (n.sign.text ++ n.whole, n.places) := by
  unfold sides places
  rw [n.splitFirst_chars]
  cases hf : n.fraction with
  | none => simp [chars, hf]
  | some ds => rfl

/-- A signed numeral in front of the point and digits behind it make a number. -/
theorem exists_of_sides {cs : List Char} {z : Int} (hwhole : Signed (sides cs).1 z)
    (hdigits : ∀ d ∈ (sides cs).2, isDigit d = true) :
    ∃ n : FixedPoint, n.chars = cs ∧ n.sign.apply (denoted n.whole : Int) = z := by
  obtain ⟨sign, ds, hds, hnumeral, rfl⟩ := hwhole
  -- Without a point the whole text is the part in front of it.
  cases hcut : splitFirst '.' cs with
  | none =>
    simp only [sides, hcut, Option.getD_none] at hds
    exact ⟨⟨sign, ds, none, hnumeral, nofun⟩, by simp [chars, hds], rfl⟩
  | some parts =>
    obtain ⟨before, after⟩ := parts
    simp only [sides, hcut, Option.getD_some] at hds hdigits
    obtain ⟨hcs, -⟩ := splitFirst_eq_some_iff.1 hcut
    refine ⟨⟨sign, ds, some after, hnumeral, fun es hes => ?_⟩, by simp [chars, hcs, hds], rfl⟩
    cases hes
    exact hdigits

end FixedPoint

/-- A sign and the numeral behind it are told apart. -/
theorem sign_text_append_inj {s t : Sign} {cs ds : List Char} (hcs : Numeral cs)
    (hds : Numeral ds) (h : s.text ++ cs = t.text ++ ds) : s = t ∧ cs = ds := by
  have hplus {es : List Char} (hes : Numeral ('+' :: es)) : False :=
    hes.notMem (c := '+') rfl List.mem_cons_self
  have hminus {es : List Char} (hes : Numeral ('-' :: es)) : False :=
    hes.notMem (c := '-') rfl List.mem_cons_self
  -- Where one of them has a sign and the other has not, a numeral would start with it.
  cases s <;> cases t <;> simp only [Sign.text, List.nil_append, List.cons_append] at h
  case none.none => exact ⟨rfl, h⟩
  case none.plus => exact (hplus (h ▸ hcs)).elim
  case none.minus => exact (hminus (h ▸ hcs)).elim
  case plus.none => exact (hplus (h ▸ hds)).elim
  case plus.plus => exact ⟨rfl, (List.cons.inj h).2⟩
  case plus.minus => simp at h
  case minus.none => exact (hminus (h ▸ hds)).elim
  case minus.plus => simp at h
  case minus.minus => exact ⟨rfl, (List.cons.inj h).2⟩

/-- A text is a decimal number in at most one way. -/
theorem FixedPoint.eq_of_chars_eq {m n : FixedPoint} (h : m.chars = n.chars) : m = n := by
  -- The cut at the point depends on the text alone, so it gives both numbers the same two sides.
  have hcut := m.splitFirst_chars
  rw [h, n.splitFirst_chars] at hcut
  obtain ⟨s, whole, fraction, hwhole, hfraction⟩ := m
  obtain ⟨t, whole', fraction', hwhole', hfraction'⟩ := n
  have hparts : t.text ++ whole' = s.text ++ whole ∧ fraction' = fraction := by
    cases fraction <;> cases fraction' <;> simp_all [chars]
  obtain ⟨hsigned, rfl⟩ := hparts
  obtain ⟨rfl, rfl⟩ := sign_text_append_inj hwhole' hwhole hsigned
  rfl

end LedgerClient.Text.Decimal
