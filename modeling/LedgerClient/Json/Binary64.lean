import LedgerClient.Text.Decimal

/-!
# `LedgerClient.Json.Binary64`: doubles in exact arithmetic

A JSON number with a fraction or an exponent is kept as a double. No
rule of the client computes with one, it only hands the number back,
so all that matters is which double a literal denotes and how a
double is written. Both are decided in exact integer arithmetic: a
finite double is `significand * 2 ^ exponent`, and `round` takes a
quotient of two naturals to the nearest one, ties to the even
significand.

`shortest` finds the fewest digits that read back as the same double:
for 1, 2, … 17 digits it looks at the value's two neighbours on that
decimal grid, and the first grid with a hit wins. If any point of a
grid rounds to the double then one of those two neighbours does, so
no shorter text would have done.
-/

set_option autoImplicit false

namespace LedgerClient

/-- A finite double: `significand * 2 ^ exponent`, with a sign that zero keeps too. -/
structure Binary64 where
  negative : Bool
  significand : Nat
  exponent : Int
deriving DecidableEq, Repr

namespace Binary64

/-- Zero, of either sign. -/
def zero (negative : Bool) : Binary64 := ⟨negative, 0, 0⟩

/-- The quotient of two naturals, the denominator positive, to the nearest integer; a tie
goes to the even one. -/
def roundQuotient (num den : Nat) : Nat :=
  let q := num / den
  let twice := 2 * (num % den)
  if twice > den ∨ (twice = den ∧ q % 2 = 1) then q + 1 else q

/-- The double nearest to `num / den`, for a positive `den`; `none` when that is beyond the
largest one. The exponent is the least for which the significand has at most 53 bits, and
never below that of the smallest double. -/
def round (num den : Nat) : Option Binary64 :=
  if num = 0 then some (zero false) else
  let guess : Int := (num.log2 : Int) - (den.log2 : Int) - 53
  let scaled (e : Int) : Nat :=
    if 0 ≤ e then roundQuotient num (den <<< e.toNat)
    else roundQuotient (num <<< (-e).toNat) den
  let fits (e : Int) : Bool := -1074 ≤ e && scaled e < 1 <<< 53
  let candidates : List Int :=
    [guess, guess + 1, guess + 2, guess + 3].map (max (-1074))
  match candidates.find? fits with
  | none => none
  | some e => if e > 971 then none else some ⟨false, scaled e, if scaled e = 0 then 0 else e⟩

/-- The nearest double to a natural number. -/
def ofNat? (n : Nat) : Option Binary64 := round n 1

/-- The numerator and denominator of a double's magnitude. -/
def ratio (x : Binary64) : Nat × Nat :=
  if 0 ≤ x.exponent then (x.significand <<< x.exponent.toNat, 1)
  else (x.significand, 1 <<< (-x.exponent).toNat)

/-- The product of two magnitudes, rounded; `none` when it is too large. -/
def mul? (x y : Binary64) : Option Binary64 :=
  let (a, b) := x.ratio
  let (c, d) := y.ratio
  round (a * c) (b * d)

/-- The quotient of two magnitudes, rounded; the divisor is not zero. -/
def div? (x y : Binary64) : Option Binary64 :=
  let (a, b) := x.ratio
  let (c, d) := y.ratio
  round (a * d) (b * c)

/-- The least `k ≤ fuel` for which `num * 10 ^ k` reaches `den`. -/
def leadingZeros (num den : Nat) : Nat → Nat
  | 0 => 0
  | fuel + 1 => if den ≤ num then 0 else leadingZeros (num * 10) den fuel + 1

/-- The place of the decimal point: the `k` with `10 ^ (k-1) ≤ x < 10 ^ k`, for `x ≠ 0`. -/
def pointPlace (num den : Nat) : Int :=
  if den ≤ num then ((Text.Decimal.digits (num / den)).length : Int)
  else 1 - (leadingZeros num den 400 : Int)

/-- `n * 10 ^ k` as a numerator and a denominator. -/
def decimalRatio (n : Nat) (k : Int) : Nat × Nat :=
  if 0 ≤ k then (n * Nat.pow 10 k.toNat, 1) else (n, Nat.pow 10 (-k).toNat)

/-- A neighbour of the magnitude of `x` on the grid of `10 ^ unit` that reads back as `x`; of
two, the nearer. -/
def onGrid? (x : Binary64) (unit : Int) : Option Nat :=
  let (num, den) := x.ratio
  let (n, d) := decimalRatio num (-unit)
  let below := n / (d * den)
  let nearest := roundQuotient n (d * den)
  let other := if nearest = below then below + 1 else below
  let readsBack (c : Nat) : Bool :=
    let (a, b) := decimalRatio c unit
    round a b == some { x with negative := false }
  [nearest, other].find? readsBack

/-- The digits of the shortest decimal that reads back as a double, and the exponent of ten
of the last one. -/
def shortest (x : Binary64) : Nat × Int :=
  if x.significand = 0 then (0, 0) else
  let (num, den) := x.ratio
  let place := pointPlace num den
  let grids : List Int := (List.range 17).map fun n : Nat => place - (n : Int) - 1
  (grids.findSome? fun unit => (onGrid? x unit).map fun c => (c, unit)).getD (0, 0)

/-- The digits without their trailing zeros, and the exponent of ten of the last one left. -/
def withoutTrailingZeros : Nat → List Char → Int → List Char × Int
  | 0, ds, k => (ds, k)
  | fuel + 1, ds, k =>
    match ds.getLast? with
    | some '0' => withoutTrailingZeros fuel ds.dropLast (k + 1)
    | _ => (ds, k)

/-- A double as a number of JSON text. It always has a point or an exponent, so that it reads
back as a double and not as an integer; positional between `1e-5` and `1e16`. -/
def text (x : Binary64) : String :=
  let sign := if x.negative then ['-'] else []
  let (n, k) := shortest x
  if n = 0 then String.ofList (sign ++ ['0', '.', '0']) else
  let digits := Text.Decimal.digits n
  let (digits, k) := withoutTrailingZeros digits.length digits k
  let count : Int := (digits.length : Int)
  let place := count + k
  let exponent : List Char := (Text.Decimal.integer (place - 1)).toList
  let body : List Char :=
    if 0 ≤ k ∧ place ≤ 16 then digits ++ List.replicate k.toNat '0' ++ ['.', '0']
    else if 0 < place ∧ place ≤ 16 then digits.take place.toNat ++ '.' :: digits.drop place.toNat
    else if -5 < place ∧ place ≤ 0 then
      ['0', '.'] ++ List.replicate (-place).toNat '0' ++ digits
    else if count = 1 then digits ++ 'e' :: exponent
    else digits.take 1 ++ '.' :: digits.drop 1 ++ 'e' :: exponent
  String.ofList (sign ++ body)

end Binary64

end LedgerClient
