import LedgerClient.Bytes
import LedgerClient.Text.Blank
import Mathlib.Data.String.Basic

/-!
# `LedgerClient.Proofs.Text.Hexadecimal`: what hexadecimal digits denote

There are sixteen digits, of which six have two cases (`Digit`). Two of
them denote a byte, the high half first, and the digits of a text must
pair up (`Denotes`). Both say nothing about how digits are read.

* `decodeChars_eq_some_iff`: the reader accepts exactly the texts that
  denote bytes, and gives these. So a text denotes one byte string at most,
  and one that cannot be paired up, or that has any other character in it,
  denotes none.
* `denotes_encode`: what is written for bytes denotes them.

A digit is a character of one byte, neither white space nor an `x`
(`Digit.plain`), which is what a reader of keys goes by.
-/

set_option autoImplicit false

namespace LedgerClient.Hex

/-! ### Digits -/

/-- The digits in order of their values, in lower case. -/
def lowerDigits : List Char :=
  ['0', '1', '2', '3', '4', '5', '6', '7', '8', '9', 'a', 'b', 'c', 'd', 'e', 'f']

/-- The digits in order of their values, in upper case. -/
def upperDigits : List Char :=
  ['0', '1', '2', '3', '4', '5', '6', '7', '8', '9', 'A', 'B', 'C', 'D', 'E', 'F']

/-- The character is the digit with the value, in either case. -/
def Digit (c : Char) (n : Nat) : Prop :=
  lowerDigits[n]? = some c ∨ upperDigits[n]? = some c

instance (c : Char) (n : Nat) : Decidable (Digit c n) :=
  inferInstanceAs (Decidable (lowerDigits[n]? = some c ∨ upperDigits[n]? = some c))

/-- A value is one of sixteen. -/
theorem Digit.lt {c : Char} {n : Nat} (h : Digit c n) : n < 16 := by
  rcases h with h | h
  · exact (List.getElem?_eq_some_iff.1 h).1
  · exact (List.getElem?_eq_some_iff.1 h).1

/-- A digit is one of the two lists. -/
theorem Digit.mem {c : Char} {n : Nat} (h : Digit c n) : c ∈ lowerDigits ++ upperDigits := by
  rw [List.mem_append]
  rcases h with h | h
  · exact .inl (List.mem_of_getElem? h)
  · exact .inr (List.mem_of_getElem? h)

/-- A digit takes one byte, and is neither white space nor the `x` of a mark. -/
theorem Digit.plain {c : Char} {n : Nat} (h : Digit c n) :
    c.utf8Size = 1 ∧ Text.isBlank c = false ∧ c ≠ 'x' := by
  have hall : (lowerDigits ++ upperDigits).all
      (fun c => c.utf8Size = 1 ∧ Text.isBlank c = false ∧ c ≠ 'x') = true := by decide
  exact of_decide_eq_true (List.all_eq_true.1 hall c h.mem)

/-- Each value below sixteen is read off its digits. -/
theorem digitValue?_of_digit {c : Char} {n : Nat} (h : Digit c n) : digitValue? c = some n := by
  have hall : ∀ n < 16, (lowerDigits ++ upperDigits).all
      (fun c => Digit c n → digitValue? c = some n) = true := by decide
  exact of_decide_eq_true (List.all_eq_true.1 (hall n h.lt) c h.mem) h

/-- Only digits have a value. -/
theorem digit_of_digitValue? {c : Char} {n : Nat} (h : digitValue? c = some n) : Digit c n := by
  -- The last digit is the `f`, so there are few characters to look at.
  have hall : ∀ code < 103, ∀ n ∈ digitValue? (Char.ofNat code), Digit (Char.ofNat code) n := by
    decide
  have hcode : c.toNat < 103 := by
    have hbelow {last : Char} (hle : c ≤ last) (hlast : last.toNat < 103) : c.toNat < 103 :=
      Nat.lt_of_le_of_lt hle hlast
    rw [digitValue?] at h
    split at h
    next hrange => exact hbelow hrange.2 (by decide)
    next =>
      split at h
      next hrange => exact hbelow hrange.2 (by decide)
      next =>
        split at h
        next hrange => exact hbelow hrange.2 (by decide)
        next => cases h
  have hc := hall c.toNat hcode
  rw [Char.ofNat_toNat] at hc
  exact hc n h

/-- A character has a value exactly if it is a digit with this value. -/
theorem digitValue?_eq_some_iff {c : Char} {n : Nat} : digitValue? c = some n ↔ Digit c n :=
  ⟨digit_of_digitValue?, digitValue?_of_digit⟩

/-- What is written for a value is its digit. -/
theorem digit_digit {n : Nat} (h : n < 16) : Digit (digit n) n := by
  have hall : ∀ n < 16, Digit (digit n) n := by decide
  exact hall n h

/-! ### Bytes -/

/-- The characters denote the bytes, two digits each of them. -/
inductive Denotes : List Char → Bytes → Prop
  | nil : Denotes [] []
  | cons {high low : Char} {h l : Nat} {cs : List Char} {bytes : Bytes} (hhigh : Digit high h)
      (hlow : Digit low l) (hrest : Denotes cs bytes) :
      Denotes (high :: low :: cs) (UInt8.ofNat (16 * h + l) :: bytes)

/-- All characters are digits. -/
def Digits (cs : List Char) : Prop := ∀ c ∈ cs, ∃ n, Digit c n

/-- The reader tells digits from other characters. -/
theorem digits_iff {cs : List Char} :
    Digits cs ↔ cs.all (fun c => (digitValue? c).isSome) = true := by
  simp only [Digits, List.all_eq_true, Option.isSome_iff_exists, digitValue?_eq_some_iff]

instance (cs : List Char) : Decidable (Digits cs) :=
  decidable_of_iff _ digits_iff.symm

/-- Digits behind digits are digits. -/
theorem Digits.append {cs ds : List Char} (hcs : Digits cs) (hds : Digits ds) :
    Digits (cs ++ ds) := by
  intro c hc
  rcases List.mem_append.1 hc with hc | hc
  · exact hcs c hc
  · exact hds c hc

/-- Digits take a byte each. -/
theorem Digits.length_ofText {cs : List Char} (h : Digits cs) :
    (Bytes.ofText (String.ofList cs)).length = cs.length := by
  rw [Bytes.length_ofText, ← String.utf8Len_toList, String.toList_ofList]
  induction cs with
  | nil => rfl
  | cons c cs ih =>
    obtain ⟨n, hc⟩ := h c List.mem_cons_self
    rw [String.utf8Len_cons, ih fun d hd => h d (List.mem_cons_of_mem c hd), hc.plain.1,
      List.length_cons]

namespace Denotes
variable {cs : List Char} {bytes : Bytes}

/-- Only digits denote something. -/
theorem digits (h : Denotes cs bytes) : Digits cs := by
  induction h with
  | nil => simp [Digits]
  | cons hhigh hlow hrest ih =>
    -- Each step of the denotation has two digits in front of the rest.
    intro c hc
    rcases List.mem_cons.1 hc with rfl | hc
    · exact ⟨_, hhigh⟩
    · rcases List.mem_cons.1 hc with rfl | hc
      · exact ⟨_, hlow⟩
      · exact ih c hc

/-- There are two digits for each byte. -/
theorem length_eq (h : Denotes cs bytes) : cs.length = 2 * bytes.length := by
  induction h with
  | nil => rfl
  | cons hhigh hlow hrest ih =>
    simp only [List.length_cons, ih]
    omega

end Denotes

/-- The characters that are read are those that denote bytes, and these are the bytes. -/
theorem decodeChars_eq_some_iff {cs : List Char} {bytes : Bytes} :
    decodeChars cs = some bytes ↔ Denotes cs bytes := by
  constructor
  · intro h
    -- The reader takes two characters at a time, and the induction follows it.
    induction cs using decodeChars.induct generalizing bytes with
    | case1 =>
      cases h
      exact .nil
    | case2 c => cases h
    | case3 high low rest ih =>
      simp only [decodeChars, Option.bind_eq_bind, Option.bind_eq_some_iff] at h
      obtain ⟨n, hhigh, m, hlow, bytes', hrest, hbytes⟩ := h
      cases hbytes
      exact .cons (digit_of_digitValue? hhigh) (digit_of_digitValue? hlow) (ih hrest)
  · intro h
    induction h with
    | nil => rfl
    | cons hhigh hlow hrest ih =>
      rw [decodeChars, digitValue?_of_digit hhigh, digitValue?_of_digit hlow, ih]
      rfl

/-- A byte is sixteen times its high half and its low half. -/
theorem ofNat_halves (b : UInt8) : UInt8.ofNat (16 * (b.toNat / 16) + b.toNat % 16) = b := by
  rw [Nat.div_add_mod, UInt8.ofNat_toNat]

/-- What is written for bytes denotes them. -/
theorem denotes_encode (bytes : Bytes) : Denotes (encode bytes).toList bytes := by
  rw [encode, String.toList_ofList]
  induction bytes with
  | nil => exact .nil
  | cons b bytes ih =>
    -- A byte is two halves of four bits, and each has a digit.
    have hlt := b.toNat_lt
    have hhigh : Digit (digit (b.toNat / 16)) (b.toNat / 16) := digit_digit (by omega)
    have hlow : Digit (digit (b.toNat % 16)) (b.toNat % 16) := digit_digit (by omega)
    have hboth := Denotes.cons hhigh hlow ih
    rw [ofNat_halves] at hboth
    exact hboth

end LedgerClient.Hex
