import LedgerClient.Json.Basic
import LedgerClient.Bytes
import LedgerClient.Text.Split

/-!
# `LedgerClient.Json.Number`: what a number literal denotes

A literal without fraction and exponent denotes an integer as long as
it fits 64 bits, signed when there is a minus sign and unsigned when
not. Every other literal denotes a double: minus zero, an integer too
large, and anything with a fraction or an exponent.

The double is found by a fixed procedure, which need not give the
double nearest to the literal. The digits are gathered into a 64-bit
significand for as long as they fit; every later digit of the whole
part only moves the exponent, and every later digit of the fraction
is dropped. The significand is then rounded to a double and scaled by
one power of ten, itself a rounded double (for exponents below -308,
by several in turn). Each of the three steps rounds.
-/

set_option autoImplicit false

namespace LedgerClient.Json

/-- A number as it is written. -/
structure Literal where
  negative : Bool
  whole : List Char
  fraction : Option (List Char)
  /-- The exponent part: whether it is negative, and its digits. -/
  exponent : Option (Bool × List Char)

namespace Literal

/-- The largest unsigned integer of 64 bits. -/
def maxSignificand : Nat := UInt64.size - 1

/-- Takes the digits into the significand until one does not fit; says how many were taken. -/
def gather : Nat → List Char → Nat × Nat
  | significand, [] => (significand, 0)
  | significand, d :: ds =>
    let next := 10 * significand + Text.Decimal.digitValue d
    if next ≤ maxSignificand then
      let (s, taken) := gather next ds
      (s, taken + 1)
    else (significand, 0)

/-- `significand * 10 ^ exponent`, rounding after each step; `none` when it is too large. A
double has no power of ten above 308, so a lower exponent is reached by several divisions. -/
def scale : Nat → Binary64 → Int → Option Binary64
  | 0, _, _ => some (Binary64.zero false)
  | fuel + 1, x, exponent =>
    if exponent.natAbs ≤ 308 then do
      let power ← Binary64.ofNat? (Nat.pow 10 exponent.natAbs)
      if 0 ≤ exponent then x.mul? power else x.div? power
    else if x.significand = 0 then some (Binary64.zero false)
    else if 0 ≤ exponent then none
    else do
      let power ← Binary64.ofNat? (Nat.pow 10 308)
      let smaller ← x.div? power
      scale fuel smaller (exponent + 308)

/-- A double of the given sign. -/
def signedReal (negative : Bool) (x : Binary64) : Json :=
  .real { x with negative := negative }

/-- The double with the given significand and exponent of ten. Every step of `scale` divides
by more than `2 ^ 1023`, so the eighth has reached zero. -/
def real (negative : Bool) (significand : Nat) (exponent : Int) : Json :=
  match (Binary64.ofNat? significand).bind fun x => scale 8 x exponent with
  | some x => signedReal negative x
  | none => .unreadable

/-- The value of the exponent's digits; `none` once they leave 32 bits. -/
def exponentValue? (digits : List Char) : Option Nat :=
  let n := Text.Decimal.value digits
  if (n : Int) ≤ Int32.maxValue.toInt then some n else none

/-- The value that a literal denotes; `unreadable` when it is too large for a double. -/
def denoted (lit : Literal) : Json :=
  let (whole, taken) := gather 0 lit.whole
  let dropped := lit.whole.length - taken
  match lit.fraction, lit.exponent with
  | none, none =>
    if dropped = 0 ∧ lit.negative = false then .integer whole
    else if dropped = 0 ∧ whole ≠ 0 ∧ Int64.minValue.toInt ≤ -(whole : Int) then
      .integer (-(whole : Int))
    else real lit.negative whole dropped
  | fraction, exponent =>
    let (significand, places) := gather whole (fraction.getD [])
    let start : Int := (dropped : Int) - (places : Int)
    match exponent with
    | none => real lit.negative significand start
    | some (below, digits) =>
      match exponentValue? digits with
      | some e => real lit.negative significand (if below then start - e else start + e)
      | none =>
        if significand ≠ 0 ∧ below = false then .unreadable
        else signedReal lit.negative (Binary64.zero false)

end Literal

end LedgerClient.Json
