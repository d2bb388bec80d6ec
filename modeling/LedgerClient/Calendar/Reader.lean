import LedgerClient.Calendar.Basic
import LedgerClient.Text.Blank
import LedgerClient.Text.Split

/-!
# `LedgerClient.Calendar.Reader`: dates with a time in text

Two notations are read. `stamped?` is the Internet one: every field
has its fixed width, a `T` or a space stands between date and time,
and an offset or a `Z` ends the text, which holds nothing else.
`local?` is the looser one without an offset: fields may be shorter,
the year may have a sign and then any length, white space may stand
between the parts but not inside a fraction, and the letter between
date and time is a capital `T`.

Second 60 is read in any minute, as the 59th followed by one more
second of nanoseconds. Of a fraction only nine digits count.
-/

set_option autoImplicit false

namespace LedgerClient.Calendar

/-- A number of between `least` and `most` digits in front of a text; as many as there are. -/
def number? (least most : Nat) (cs : List Char) : Option (Nat × List Char) :=
  let digits := (cs.take most).takeWhile Text.Decimal.isDigit
  if least ≤ digits.length then
    some (Text.Decimal.value digits, cs.drop digits.length)
  else none

/-- A number of two digits in front of a text. -/
def two? (cs : List Char) : Option (Nat × List Char) :=
  number? 2 2 cs

/-- A character in front of a text. -/
def char? (c : Char) (cs : List Char) : Option (List Char) :=
  Text.dropLeading? [c] cs

/-- The nanoseconds of an optional fraction in front of a text. -/
def fraction? : List Char → Option (Nat × List Char)
  | '.' :: cs =>
    let digits := cs.takeWhile Text.Decimal.isDigit
    if digits = [] then none
    else
      let kept := digits.take 9
      let zeros := List.replicate (9 - kept.length) '0'
      some (Text.Decimal.value (kept ++ zeros), cs.drop digits.length)
  | cs => some (0, cs)

/-- The date with the given fields, if there is one. -/
def date? (year : Int) (month day : Nat) : Option Date :=
  let date : Date := ⟨year, month, day⟩
  if date.isReal then some date else none

/-- The time with the given fields, if there is one. -/
def clock? (hour minute second nanos : Nat) : Option Clock :=
  if hour ≤ 23 ∧ minute ≤ 59 then
    if second ≤ 59 then some ⟨hour, minute, second, nanos⟩
    else if second = 60 then some ⟨hour, minute, 59, 1000000000 + nanos⟩
    else none
  else none

/-- The offset that ends a text, in seconds. The minus sign may be the typographic one. -/
def offset? : List Char → Option Int
  | ['Z'] | ['z'] => some 0
  | sign :: cs => do
    let ahead ← if sign = '+' then some true
      else if sign = '-' ∨ sign = '\u2212' then some false else none
    let (hours, cs) ← two? cs
    let cs ← char? ':' cs
    let (minutes, cs) ← two? cs
    if hours ≤ 23 ∧ minutes ≤ 59 ∧ cs = [] then
      let seconds : Int := ((3600 * hours + 60 * minutes : Nat) : Int)
      some (if ahead then seconds else -seconds)
    else none
  | [] => none

/-- The instant of a text with an offset. -/
def stamped? (cs : List Char) : Option Moment := do
  let (year, cs) ← number? 4 4 cs
  let cs ← char? '-' cs
  let (month, cs) ← two? cs
  let cs ← char? '-' cs
  let (day, cs) ← two? cs
  let cs ← match cs with
    | 'T' :: cs | 't' :: cs | ' ' :: cs => some cs
    | _ => none
  let (hour, cs) ← two? cs
  let cs ← char? ':' cs
  let (minute, cs) ← two? cs
  let cs ← char? ':' cs
  let (second, cs) ← two? cs
  let (nanos, cs) ← fraction? cs
  let offset ← offset? cs
  let date ← date? year month day
  let clock ← clock? hour minute second nanos
  return Moment.ofCivil date clock offset

/-- The text without the white space in front. -/
def skipBlank (cs : List Char) : List Char :=
  cs.dropWhile Text.isBlank

/-- A year: up to four digits, or a sign and any number of them. -/
def looseYear? (cs : List Char) : Option (Int × List Char) :=
  match cs with
  | '-' :: cs => (number? 1 cs.length cs).map fun (n, cs) => (-(n : Int), cs)
  | '+' :: cs => (number? 1 cs.length cs).map fun (n, cs) => ((n : Int), cs)
  | cs => (number? 1 4 cs).map fun (n, cs) => ((n : Int), cs)

/-- A number of one or two digits behind white space. -/
def loose? (cs : List Char) : Option (Nat × List Char) :=
  number? 1 2 (skipBlank cs)

/-- The years for which the looser notation has dates. -/
def minYear : Int := -262143

/-- See `minYear`. -/
def maxYear : Int := 262142

/-- The instant of a text without an offset, in universal time. -/
def local? (cs : List Char) : Option Moment := do
  let (year, cs) ← looseYear? (skipBlank cs)
  let cs ← char? '-' (skipBlank cs)
  let (month, cs) ← loose? cs
  let cs ← char? '-' (skipBlank cs)
  let (day, cs) ← loose? cs
  let cs ← char? 'T' (skipBlank cs)
  let (hour, cs) ← loose? cs
  let cs ← char? ':' (skipBlank cs)
  let (minute, cs) ← loose? cs
  let cs ← char? ':' (skipBlank cs)
  let (second, cs) ← loose? cs
  let (nanos, cs) ← fraction? cs
  if skipBlank cs ≠ [] ∨ year < minYear ∨ maxYear < year then none else
  let date ← date? year month day
  let clock ← clock? hour minute second nanos
  return Moment.ofCivil date clock 0

/-- The instant of a text in either notation. -/
def moment? (text : String) : Option Moment :=
  (stamped? text.toList).orElse fun _ => local? text.toList

end LedgerClient.Calendar
