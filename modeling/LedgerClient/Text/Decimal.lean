/-!
# `LedgerClient.Text.Decimal`: decimal numerals

Every number in an identifier, a timestamp or an amount is a run of
ASCII digits. `digits` writes one and `value` reads it; a reader is
`value` behind a check that there is at least one digit and nothing
else, an optional sign, and a range.

A plus sign is allowed in front of any numeral and a minus sign only
where the number may be negative, so `-0` is a signed numeral and no
unsigned one. Leading zeros are allowed everywhere: the numeral
denotes a number, and only the number is checked against the range.
-/

set_option autoImplicit false

namespace LedgerClient.Text.Decimal

/-- The digit of a number below ten. -/
def digit (n : Nat) : Char :=
  Char.ofNat (48 + n)

/-- Whether a character is one of the ten ASCII digits. -/
def isDigit (c : Char) : Bool :=
  decide ('0' ≤ c ∧ c ≤ '9')

/-- The number a digit denotes. -/
def digitValue (c : Char) : Nat :=
  c.toNat - 48

/-- The numeral of a number: no leading zeros, and `0` for zero. -/
def digits (n : Nat) : List Char :=
  if n < 10 then [digit n] else digits (n / 10) ++ [digit (n % 10)]
termination_by n

/-- The number that a run of digits denotes. -/
def value (cs : List Char) : Nat :=
  cs.foldl (fun n c => 10 * n + digitValue c) 0

/-- The text of a natural number. -/
def natural (n : Nat) : String :=
  String.ofList (digits n)

/-- The text of an integer: a minus sign in front of a negative one. -/
def integer (n : Int) : String :=
  if n < 0 then String.ofList ('-' :: digits n.natAbs) else natural n.natAbs

/-- The numeral of a number filled up with leading zeros to at least `width` digits. -/
def padded (width n : Nat) : List Char :=
  List.replicate (width - (digits n).length) '0' ++ digits n

/-- The number that a numeral denotes: one or more digits and nothing else. -/
def value? (cs : List Char) : Option Nat :=
  if cs ≠ [] ∧ cs.all isDigit then some (value cs) else none

/-- The numeral behind an optional plus sign. -/
def unsigned? : List Char → Option Nat
  | '+' :: cs => value? cs
  | cs => value? cs

/-- The numeral behind an optional sign. -/
def signed? : List Char → Option Int
  | '+' :: cs => (value? cs).map Int.ofNat
  | '-' :: cs => (value? cs).map fun n => -(n : Int)
  | cs => (value? cs).map Int.ofNat

/-- An unsigned numeral below `bound`. -/
def below? (bound : Nat) (cs : List Char) : Option Nat :=
  (unsigned? cs).filter (· < bound)

/-- An unsigned numeral of 64 bits. -/
def uint64? (cs : List Char) : Option UInt64 :=
  (below? UInt64.size cs).map UInt64.ofNat

/-- A signed numeral of 64 bits. -/
def int64? (cs : List Char) : Option Int64 :=
  ((signed? cs).filter fun n =>
    Int64.minValue.toInt ≤ n ∧ n ≤ Int64.maxValue.toInt).map Int64.ofInt

end LedgerClient.Text.Decimal
