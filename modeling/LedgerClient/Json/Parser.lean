import LedgerClient.Json.Number

/-!
# `LedgerClient.Json.Parser`: reading JSON text

The grammar is the strict one: no comments, no trailing commas, no
byte order mark, no raw control characters in texts, no leading
zeros, nothing after the value but white space. `Json.parse?` reads
the text into the value as written; see `LedgerClient.Json.Basic` for
what becomes of it.

Every function returns what follows the part it read. The recursion
of `value?` is bounded by `fuel`: each step either consumes a
character or hands the same text to a reader that will, so twice the
length of the text is enough.
-/

set_option autoImplicit false

namespace LedgerClient.Json

/-- The four characters that may stand between tokens. -/
def isSpace (c : Char) : Bool :=
  c = ' ' || c = '\t' || c = '\n' || c = '\r'

/-- The text without the white space in front. -/
def skipSpace (cs : List Char) : List Char :=
  cs.dropWhile isSpace

/-- What one element of a text literal contributes: a character, or one unit of a surrogate
pair that was written as an escape. -/
inductive Unit16 where
  | scalar (c : Char)
  | half (unit : Nat)

/-- The code unit that four hexadecimal digits denote. -/
def hexUnit? : List Char → Option (Nat × List Char)
  | a :: b :: c :: d :: rest => do
    let a ← Hex.digitValue? a
    let b ← Hex.digitValue? b
    let c ← Hex.digitValue? c
    let d ← Hex.digitValue? d
    return (((a * 16 + b) * 16 + c) * 16 + d, rest)
  | _ => none

/-- What an escape denotes, without its backslash. -/
def escape? : List Char → Option (Unit16 × List Char)
  | '"' :: rest => some (.scalar '"', rest)
  | '\\' :: rest => some (.scalar '\\', rest)
  | '/' :: rest => some (.scalar '/', rest)
  | 'b' :: rest => some (.scalar '\x08', rest)
  | 'f' :: rest => some (.scalar '\x0c', rest)
  | 'n' :: rest => some (.scalar '\n', rest)
  | 'r' :: rest => some (.scalar '\r', rest)
  | 't' :: rest => some (.scalar '\t', rest)
  | 'u' :: rest => do
    let (unit, rest) ← hexUnit? rest
    let isHalf := 0xD800 ≤ unit && unit ≤ 0xDFFF
    return (if isHalf then .half unit else .scalar (Char.ofNat unit), rest)
  | _ => none

/-- The elements of a text literal after its opening quote, up to the closing one. -/
def units? : Nat → List Char → Option (List Unit16 × List Char)
  | 0, _ => none
  | _, [] => none
  | fuel + 1, c :: rest =>
    if c = '"' then some ([], rest)
    else if c = '\\' then do
      let (unit, rest) ← escape? rest
      let (units, rest) ← units? fuel rest
      return (unit :: units, rest)
    else if c.toNat < 0x20 then none
    else do
      let (units, rest) ← units? fuel rest
      return (.scalar c :: units, rest)

/-- The characters of a text, each surrogate pair joined; `none` when a half is alone. -/
def joinHalves : List Unit16 → Option (List Char)
  | [] => some []
  | .scalar c :: rest => (joinHalves rest).map (c :: ·)
  | .half high :: .half low :: rest =>
    if high < 0xDC00 ∧ 0xDC00 ≤ low then
      let c := Char.ofNat (0x10000 + (high - 0xD800) * 0x400 + (low - 0xDC00))
      (joinHalves rest).map (c :: ·)
    else none
  | .half _ :: _ => none

/-- A text literal after its opening quote: the text, or `none` in its place when it has a
lone surrogate. -/
def textBody? (fuel : Nat) (cs : List Char) : Option (Option String × List Char) := do
  let (units, rest) ← units? fuel cs
  return ((joinHalves units).map String.ofList, rest)

/-- The digits in front of a text, if there is one. -/
def digits? (cs : List Char) : Option (List Char × List Char) :=
  let digits := cs.takeWhile Text.Decimal.isDigit
  if digits = [] then none else some (digits, cs.dropWhile Text.Decimal.isDigit)

/-- The digits of an exponent behind its optional sign. -/
def exponent? (cs : List Char) : Option ((Bool × List Char) × List Char) :=
  let (negative, cs) := match cs with
    | '-' :: rest => (true, rest)
    | '+' :: rest => (false, rest)
    | cs => (false, cs)
  (digits? cs).map fun (digits, rest) => ((negative, digits), rest)

/-- A number literal. A whole part of several digits does not start with zero, and a point or
an exponent mark is followed by a digit. -/
def literal? (cs : List Char) : Option (Literal × List Char) := do
  let (negative, cs) := match cs with
    | '-' :: rest => (true, rest)
    | cs => (false, cs)
  let (whole, cs) ← digits? cs
  if whole.length ≠ 1 ∧ whole.head? = some '0' then none else
  let (fraction, cs) ← match cs with
    | '.' :: rest => (digits? rest).map fun (ds, rest) => (some ds, rest)
    | cs => some (none, cs)
  let (exponent, cs) ← match cs with
    | 'e' :: rest | 'E' :: rest => (exponent? rest).map fun (e, rest) => (some e, rest)
    | cs => some (none, cs)
  return (⟨negative, whole, fraction, exponent⟩, cs)

mutual

/-- A value, with no white space in front of it. -/
def value? : Nat → List Char → Option (Json × List Char)
  | 0, _ => none
  | _, [] => none
  | fuel + 1, c :: cs =>
    match c with
    | 'n' => (Text.dropLeading? ['u', 'l', 'l'] cs).map fun rest => (.null, rest)
    | 't' => (Text.dropLeading? ['r', 'u', 'e'] cs).map fun rest => (.bool true, rest)
    | 'f' => (Text.dropLeading? ['a', 'l', 's', 'e'] cs).map fun rest => (.bool false, rest)
    | '"' => (textBody? (cs.length + 1) cs).map fun (s, rest) =>
      (s.elim .unreadable .text, rest)
    | '[' => match skipSpace cs with
      | ']' :: rest => some (.list [], rest)
      | cs => (items? fuel cs).map fun (items, rest) => (.list items, rest)
    | '\x7b' => match skipSpace cs with
      | '\x7d' :: rest => some (.record [], rest)
      | cs => (fields? fuel cs).map fun (fields, rest) =>
        (fields.elim .unreadable .record, rest)
    | c => (literal? (c :: cs)).map fun (lit, rest) => (lit.denoted, rest)

/-- The items of a list that has at least one, through its closing bracket. -/
def items? : Nat → List Char → Option (List Json × List Char)
  | 0, _ => none
  | fuel + 1, cs => do
    let (item, cs) ← value? fuel cs
    match skipSpace cs with
    | ']' :: rest => return ([item], rest)
    | ',' :: rest =>
      let (items, rest) ← items? fuel (skipSpace rest)
      return (item :: items, rest)
    | _ => none

/-- The fields of a record that has at least one, through its closing brace; `none` in place
of the fields when a name has a lone surrogate. -/
def fields? : Nat → List Char → Option (Option (List (String × Json)) × List Char)
  | 0, _ => none
  | fuel + 1, cs => do
    let (name, cs) ← match cs with
      | '"' :: rest => textBody? (rest.length + 1) rest
      | _ => none
    let cs ← Text.dropLeading? [':'] (skipSpace cs)
    let (value, cs) ← value? fuel (skipSpace cs)
    let field := name.map fun name => (name, value)
    match skipSpace cs with
    | '\x7d' :: rest => return (field.map fun f => [f], rest)
    | ',' :: rest =>
      let (fields, rest) ← fields? fuel (skipSpace rest)
      return (do return (← field) :: (← fields), rest)
    | _ => none

end

/-- The value that a text denotes: one value, with white space around it. -/
def parse? (text : String) : Option Json := do
  let cs := text.toList
  let (json, rest) ← value? (2 * cs.length + 2) (skipSpace cs)
  if skipSpace rest = [] then some json else none

/-- The value that an untyped reading of a text keeps. -/
def read? (text : String) : Option Json :=
  (parse? text).bind settled

end LedgerClient.Json
