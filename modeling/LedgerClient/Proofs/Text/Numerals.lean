import LedgerClient.Text.Decimal
import Mathlib.Data.List.Induction
import Mathlib.Data.Nat.Digits.Defs
import Mathlib.Tactic.Ring

/-!
# `LedgerClient.Proofs.Text.Numerals`: what a numeral denotes

A numeral is one or more digits, and denotes the sum of its digits, each
times its power of ten (`Numeral`, `denoted`). With an optional sign in
front it denotes an integer (`Signed`), or a natural number if the sign
is not a minus sign (`Unsigned`). These three say nothing about how
numerals are read.

* `value?_eq_some_iff`, `unsigned?_eq_some_iff`, `signed?_eq_some_iff`:
  the readers accept exactly the numerals, and give what they denote. The
  readers of 64 bits (`uint64?_eq_some_iff`, `int64?_eq_some_iff`) accept
  those of which the number is in range.
* `numeral_digits`, `value_digits`: the numeral that is written for a
  number denotes it, also when it is filled up with zeros (`value_padded`).

Reading goes from the left, so that each digit more is ten times what was
read before and the digit (`value_append`). Everything else follows from
this equation.
-/

set_option autoImplicit false

namespace LedgerClient.Text.Decimal

/-! ### Numerals and what they denote -/

/-- One or more digits. -/
structure Numeral (cs : List Char) : Prop where
  ne_nil : cs ≠ []
  digits : ∀ c ∈ cs, isDigit c = true

/-- The number that digits denote: the last is worth one, and each one before it ten times as
much. -/
def denoted (cs : List Char) : Nat :=
  Nat.ofDigits 10 (cs.reverse.map digitValue)

/-- What may stand in front of a numeral. -/
inductive Sign where
  | none
  | plus
  | minus
deriving DecidableEq

/-- How a sign is written. -/
def Sign.text : Sign → List Char
  | none => []
  | plus => ['+']
  | minus => ['-']

/-- What a sign makes of the number behind it. -/
def Sign.apply {α : Type} [Neg α] : Sign → α → α
  | minus, n => -n
  | _, n => n

/-- Only a minus sign in front of something can make a number negative. -/
theorem Sign.apply_eq_of_nonneg {sign : Sign} {n : Nat} (h : 0 ≤ sign.apply (n : Int)) :
    sign.apply (n : Int) = n := by
  cases sign with
  | minus =>
    have hneg : 0 ≤ -(n : Int) := h
    show -(n : Int) = n
    omega
  | _ => rfl

/-- The characters are a numeral behind an optional sign, which denotes the integer. -/
def Signed (cs : List Char) (n : Int) : Prop :=
  ∃ (sign : Sign) (ds : List Char),
    cs = sign.text ++ ds ∧ Numeral ds ∧ n = sign.apply (denoted ds : Int)

/-- The characters are a numeral behind an optional plus sign, which denotes the number. -/
def Unsigned (cs : List Char) (n : Nat) : Prop :=
  ∃ (sign : Sign) (ds : List Char),
    sign ≠ .minus ∧ cs = sign.text ++ ds ∧ Numeral ds ∧ n = denoted ds

/-! ### Digits -/

/-- The ten digits have numbers in a row. -/
theorem isDigit_iff {c : Char} : isDigit c = true ↔ 48 ≤ c.toNat ∧ c.toNat ≤ 57 := by
  rw [isDigit, decide_eq_true_iff]
  rfl

/-- A digit counts less than ten. -/
theorem digitValue_lt {c : Char} (h : isDigit c = true) : digitValue c < 10 := by
  rw [isDigit_iff] at h
  rw [digitValue]
  omega

/-- The digit of each number below ten is a digit, and has that value. -/
theorem digit_spec {n : Nat} (h : n < 10) :
    isDigit (digit n) = true ∧ digitValue (digit n) = n := by
  have hall : ∀ n < 10, isDigit (digit n) = true ∧ digitValue (digit n) = n := by decide
  exact hall n h

/-! ### The value of digits -/

/-- No digits denote nothing. -/
theorem value_nil : value [] = 0 := rfl

/-- Digits behind others move them up by as many places. -/
theorem value_append (cs ds : List Char) :
    value (cs ++ ds) = value cs * 10 ^ ds.length + value ds := by
  -- From the end: the last digit is worth one.
  induction ds using List.reverseRecOn with
  | nil => simp [value_nil]
  | append_singleton ds d ih =>
    have hlast (es : List Char) : value (es ++ [d]) = 10 * value es + digitValue d := by
      rw [value, List.foldl_append]
      rfl
    rw [← List.append_assoc, hlast, ih, hlast, List.length_append, List.length_singleton, pow_succ]
    ring

/-- The value of digits is the number that they denote. -/
theorem value_eq_denoted (cs : List Char) : value cs = denoted cs := by
  induction cs using List.reverseRecOn with
  | nil => rfl
  | append_singleton cs c ih =>
    rw [value_append, ih, denoted, denoted, List.reverse_append, List.reverse_singleton,
      List.singleton_append, List.map_cons, Nat.ofDigits_cons]
    show _ * 10 ^ 1 + (10 * 0 + digitValue c) = _
    ring

/-- Digits denote less than the power of ten of their number. -/
theorem value_lt {cs : List Char} (h : ∀ c ∈ cs, isDigit c = true) :
    value cs < 10 ^ cs.length := by
  induction cs with
  | nil => simp [value_nil]
  | cons c cs ih =>
    -- The first digit is worth its place, and the others are worth less than that place.
    have hc : digitValue c < 10 := digitValue_lt (h c List.mem_cons_self)
    have hcs := ih fun d hd => h d (List.mem_cons_of_mem c hd)
    have hvalue : value (c :: cs) = digitValue c * 10 ^ cs.length + value cs := by
      rw [← List.singleton_append, value_append]
      simp [value]
    calc value (c :: cs) < digitValue c * 10 ^ cs.length + 10 ^ cs.length := by omega
      _ = (digitValue c + 1) * 10 ^ cs.length := by ring
      _ ≤ 10 * 10 ^ cs.length := Nat.mul_le_mul_right _ hc
      _ = 10 ^ (c :: cs).length := by rw [List.length_cons, pow_succ, Nat.mul_comm]

/-- Nor do zeros, however many. -/
theorem value_zeros (count : Nat) : value (List.replicate count '0') = 0 := by
  induction count with
  | zero => rfl
  | succ count ih =>
    rw [List.replicate_succ', value_append, ih]
    rfl

/-! ### Written numerals -/

/-- The numeral of a number is its last digit behind the numeral of the rest. -/
theorem digits_of_ge {n : Nat} (h : 10 ≤ n) : digits n = digits (n / 10) ++ [digit (n % 10)] := by
  rw [digits, if_neg (by omega)]

/-- A number below ten has one digit. -/
theorem digits_of_lt {n : Nat} (h : n < 10) : digits n = [digit n] := by
  rw [digits, if_pos h]

/-- The numeral of a number denotes it. -/
theorem value_digits (n : Nat) : value (digits n) = n := by
  induction n using Nat.strongRecOn with
  | ind n ih =>
    -- All digits but the last are those of a tenth of the number.
    by_cases h : n < 10
    · rw [digits_of_lt h, value]
      simp [(digit_spec h).2]
    · have hdigit := (digit_spec (Nat.mod_lt n (by omega : 0 < 10))).2
      rw [digits_of_ge (by omega), value_append, ih (n / 10) (by omega)]
      show n / 10 * 10 ^ 1 + (10 * 0 + digitValue (digit (n % 10))) = n
      rw [hdigit]
      omega

/-- What is written for a number is a numeral. -/
theorem numeral_digits (n : Nat) : Numeral (digits n) := by
  induction n using Nat.strongRecOn with
  | ind n ih =>
    by_cases h : n < 10
    · rw [digits_of_lt h]
      refine ⟨List.cons_ne_nil _ _, fun c hc => ?_⟩
      rw [List.mem_singleton.1 hc]
      exact (digit_spec h).1
    · rw [digits_of_ge (by omega)]
      refine ⟨by simp, fun c hc => ?_⟩
      rcases List.mem_append.1 hc with hc | hc
      · exact (ih (n / 10) (by omega)).digits c hc
      · rw [List.mem_singleton.1 hc]
        exact (digit_spec (Nat.mod_lt n (by omega))).1

/-- A number below a power of ten has at most as many digits. -/
theorem length_digits_le {n width : Nat} (hwidth : 0 < width) (h : n < 10 ^ width) :
    (digits n).length ≤ width := by
  induction width generalizing n with
  | zero => omega
  | succ width ih =>
    -- A number of more than one digit loses one with its width, and the rest is not empty.
    by_cases hn : n < 10
    · rw [digits_of_lt hn, List.length_singleton]
      omega
    · rw [digits_of_ge (by omega), List.length_append, List.length_singleton]
      have hrest : n / 10 < 10 ^ width := by
        rw [pow_succ] at h
        omega
      have hpositive : 0 < width := by
        rcases Nat.eq_zero_or_pos width with rfl | hpositive
        · omega
        · exact hpositive
      exact Nat.succ_le_succ (ih hpositive hrest)

/-- Zeros in front of a numeral do not change what it denotes. -/
theorem value_padded (width n : Nat) : value (padded width n) = n := by
  rw [padded, value_append, value_zeros, value_digits]
  omega

/-- A padded number is as wide as it was asked to be, if it fits. -/
theorem length_padded {n width : Nat} (hwidth : 0 < width) (h : n < 10 ^ width) :
    (padded width n).length = width := by
  have hlength := length_digits_le hwidth h
  rw [padded, List.length_append, List.length_replicate]
  omega

/-- It consists of digits, those in front included. -/
theorem isDigit_of_mem_padded {width n : Nat} {c : Char} (h : c ∈ padded width n) :
    isDigit c = true := by
  rw [padded, List.mem_append] at h
  rcases h with h | h
  · rw [List.eq_of_mem_replicate h]
    rfl
  · exact (numeral_digits n).digits c h

/-! ### Readers -/

/-- Digits are read as what they denote, if there are any. -/
theorem value?_eq_some_iff {cs : List Char} {n : Nat} :
    value? cs = some n ↔ Numeral cs ∧ n = denoted cs := by
  rw [value?]
  -- The reader checks what a numeral is: that there is a character, and that all are digits.
  by_cases h : cs ≠ [] ∧ cs.all isDigit = true
  · rw [if_pos h, Option.some.injEq, value_eq_denoted]
    have hnumeral : Numeral cs := ⟨h.1, List.all_eq_true.1 h.2⟩
    simp [hnumeral, eq_comm]
  · rw [if_neg h]
    have hnot : ¬ Numeral cs := fun hn => h ⟨hn.ne_nil, List.all_eq_true.2 hn.digits⟩
    simp [hnot]

/-- There is nothing but digits in a numeral. -/
theorem Numeral.notMem {c : Char} {cs : List Char} (h : Numeral cs) (hc : isDigit c = false) :
    c ∉ cs := by
  intro hmem
  have hdigit := h.digits c hmem
  rw [hc] at hdigit
  cases hdigit

/-- Digits without a sign are read as they stand. -/
theorem unsigned?_bare {ds : List Char} (h : Numeral ds) : unsigned? ds = some (denoted ds) := by
  rw [unsigned?.eq_def]
  split
  · exact absurd List.mem_cons_self (h.notMem (c := '+') rfl)
  · exact value?_eq_some_iff.2 ⟨h, rfl⟩

/-- So they are where a sign may come first. -/
theorem signed?_bare {ds : List Char} (h : Numeral ds) :
    signed? ds = some (denoted ds : Int) := by
  rw [signed?.eq_def]
  split
  · exact absurd List.mem_cons_self (h.notMem (c := '+') rfl)
  · exact absurd List.mem_cons_self (h.notMem (c := '-') rfl)
  · rw [value?_eq_some_iff.2 ⟨h, rfl⟩]
    rfl

/-- A number without a sign is read from the texts that spell it: digits, and perhaps a plus before
them. -/
theorem unsigned?_eq_some_iff {cs : List Char} {n : Nat} :
    unsigned? cs = some n ↔ Unsigned cs n := by
  constructor
  · intro h
    -- A plus is taken off, and everything else must be digits from the start.
    rw [unsigned?.eq_def] at h
    split at h
    next ds =>
      obtain ⟨hds, hn⟩ := value?_eq_some_iff.1 h
      exact ⟨.plus, ds, nofun, rfl, hds, hn⟩
    next =>
      obtain ⟨hds, hn⟩ := value?_eq_some_iff.1 h
      exact ⟨.none, cs, nofun, rfl, hds, hn⟩
  · rintro ⟨sign, ds, hsign, rfl, hds, rfl⟩
    cases sign with
    | none => exact unsigned?_bare hds
    | plus => exact value?_eq_some_iff.2 ⟨hds, rfl⟩
    | minus => exact absurd rfl hsign

/-- A number with a sign is read from the texts that spell it, with a plus, a minus or neither. -/
theorem signed?_eq_some_iff {cs : List Char} {n : Int} :
    signed? cs = some n ↔ Signed cs n := by
  constructor
  · intro h
    rw [signed?.eq_def] at h
    -- The three ways of writing a sign are the three branches of the reader.
    split at h
    next ds =>
      obtain ⟨m, hm, rfl⟩ := Option.map_eq_some_iff.1 h
      obtain ⟨hds, rfl⟩ := value?_eq_some_iff.1 hm
      exact ⟨.plus, ds, rfl, hds, rfl⟩
    next ds =>
      cases hm : value? ds with
      | none =>
        rw [hm] at h
        cases h
      | some m =>
        rw [hm] at h
        cases h
        obtain ⟨hds, rfl⟩ := value?_eq_some_iff.1 hm
        exact ⟨.minus, ds, rfl, hds, rfl⟩
    next =>
      obtain ⟨m, hm, rfl⟩ := Option.map_eq_some_iff.1 h
      obtain ⟨hds, rfl⟩ := value?_eq_some_iff.1 hm
      exact ⟨.none, cs, rfl, hds, rfl⟩
  · rintro ⟨sign, ds, rfl, hds, rfl⟩
    have hvalue : value? ds = some (denoted ds) := value?_eq_some_iff.2 ⟨hds, rfl⟩
    cases sign with
    | none => exact signed?_bare hds
    | plus =>
      show (value? ds).map Int.ofNat = _
      rw [hvalue]
      rfl
    | minus =>
      show (value? ds).map (fun m => -(m : Int)) = _
      rw [hvalue]
      rfl

/-- The reader of 64 bits accepts the unsigned numerals that denote a number of 64 bits. -/
theorem uint64?_eq_some_iff {cs : List Char} {n : UInt64} :
    uint64? cs = some n ↔ Unsigned cs n.toNat := by
  have hlt := n.toNat_lt_size
  rw [uint64?, below?, Option.map_eq_some_iff]
  -- The reader filters the values by the bound, which every number of 64 bits meets.
  simp only [Option.filter_eq_some_iff, unsigned?_eq_some_iff, decide_eq_true_eq]
  constructor
  · rintro ⟨m, ⟨hm, hsize⟩, rfl⟩
    rwa [UInt64.toNat_ofNat_of_lt' hsize]
  · intro h
    exact ⟨n.toNat, ⟨h, hlt⟩, UInt64.ofNat_toNat⟩

/-- The reader of 64 bits accepts the signed numerals that denote an integer of 64 bits. -/
theorem int64?_eq_some_iff {cs : List Char} {n : Int64} :
    int64? cs = some n ↔ Signed cs n.toInt := by
  rw [int64?, Option.map_eq_some_iff]
  simp only [Option.filter_eq_some_iff, signed?_eq_some_iff, decide_eq_true_eq]
  constructor
  · rintro ⟨m, ⟨hm, hmin, hmax⟩, rfl⟩
    rw [Int64.toInt_minValue] at hmin
    rw [Int64.toInt_maxValue] at hmax
    have hlt : m < 2 ^ 63 := by omega
    rwa [Int64.toInt_ofInt_of_le hmin hlt]
  · intro h
    exact ⟨n.toInt, ⟨h, n.minValue_le_toInt, n.toInt_le⟩, n.ofInt_toInt⟩

/-! ### Texts of numbers -/

/-- The text of a number is an unsigned numeral. -/
theorem unsigned_natural (n : Nat) : Unsigned (natural n).toList n := by
  refine ⟨.none, digits n, nofun, ?_, numeral_digits n, ?_⟩
  · rw [natural, String.toList_ofList]
    rfl
  · rw [← value_eq_denoted, value_digits]

/-- The text of an integer is a signed numeral. -/
theorem signed_integer (n : Int) : Signed (integer n).toList n := by
  rw [integer]
  -- A minus is written for a negative number, in front of the digits of its size.
  split
  next hneg =>
    refine ⟨.minus, digits n.natAbs, ?_, numeral_digits _, ?_⟩
    · rw [String.toList_ofList]
      rfl
    · rw [← value_eq_denoted, value_digits]
      show n = -(n.natAbs : Int)
      omega
  next hpos =>
    refine ⟨.none, digits n.natAbs, ?_, numeral_digits _, ?_⟩
    · rw [natural, String.toList_ofList]
      rfl
    · rw [← value_eq_denoted, value_digits]
      show n = (n.natAbs : Int)
      omega

/-- Nothing but signs and digits is in the text of a number. -/
theorem Signed.notMem {c : Char} {cs : List Char} {n : Int} (h : Signed cs n)
    (hdigit : isDigit c = false) (hplus : c ≠ '+') (hminus : c ≠ '-') : c ∉ cs := by
  obtain ⟨sign, ds, rfl, hds, -⟩ := h
  have hds' := hds.notMem hdigit
  cases sign <;> simp [Sign.text, hds', hplus, hminus]

/-- A number without a minus sign is an integer as well. -/
theorem Unsigned.signed {cs : List Char} {n : Nat} (h : Unsigned cs n) : Signed cs n := by
  obtain ⟨sign, ds, hsign, rfl, hds, rfl⟩ := h
  cases sign with
  | none => exact ⟨.none, ds, rfl, hds, rfl⟩
  | plus => exact ⟨.plus, ds, rfl, hds, rfl⟩
  | minus => exact absurd rfl hsign

end LedgerClient.Text.Decimal
