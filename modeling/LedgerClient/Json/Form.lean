import LedgerClient.Json.Parser

/-!
# `LedgerClient.Json.Form`: typed values in JSON

A type with a JSON form is written by `toJson` and read by `ofJson`,
which is strict about types and ranges: an integer is an integer
literal in range, and `null` is read only as the absence of an
optional value.

A structure is a record of its fields. In a record, unknown fields are
skipped, a known field may not be written twice, and a field left out
is an error unless its type has an `absent` value or the structure
gives a default. A structure may also be written as the list of its
fields in their order of declaration, with nothing left out but
trailing fields that have a default.

Which of several mistakes is reported is fixed: the first one in the
order in which the fields are written, and only then a field that is
missing, in the order of declaration. `readRecord` therefore checks
every field it meets before any field is asked for.

A variant is written as its name when it carries nothing, and as a
record of one field, the name, when it carries something; a variant
that carries nothing may be written with `null` as what it carries.
-/

set_option autoImplicit false

namespace LedgerClient

/-- Why a JSON value is no instance of a form. -/
inductive Mismatch where
  | wrongType
  | outOfRange
  | wrongLength
  | repeatedField (name : String)
  | missingField (name : String)
  | unknownVariant (name : String)
  | noVariant (form : String)
deriving DecidableEq, Repr

namespace Mismatch

/-- The text of a mismatch. -/
def message : Mismatch → String
  | wrongType => "invalid type: the value is of another type"
  | outOfRange => "invalid value: the number is out of range"
  | wrongLength => "invalid length of a list"
  | repeatedField name => s!"duplicate field `{name}`"
  | missingField name => s!"missing field `{name}`"
  | unknownVariant name => s!"unknown variant `{name}`"
  | noVariant form => s!"data did not match any variant of untagged enum {form}"

end Mismatch

/-- Types with a JSON form. -/
class JsonForm (α : Type) where
  /-- The JSON value in which a value is written. -/
  toJson : α → Json
  /-- The value that a JSON value denotes. -/
  ofJson : Json → Except Mismatch α
  /-- The value of a field that is left out, for types that have one. -/
  absent : Option α := none

export JsonForm (toJson ofJson)

namespace Json

/-- An integer literal between two bounds. -/
def integerWithin (low high : Int) : Json → Except Mismatch Int
  | .integer n => if low ≤ n ∧ n ≤ high then .ok n else .error .outOfRange
  | _ => .error .wrongType

/-- An integer literal from zero up to a bound. -/
def naturalBelow (bound : Nat) : Json → Except Mismatch Nat
  | .integer n => if 0 ≤ n ∧ n < bound then .ok n.toNat else .error .outOfRange
  | _ => .error .wrongType

instance : JsonForm Bool where
  toJson := .bool
  ofJson
    | .bool b => .ok b
    | _ => .error .wrongType

instance : JsonForm String where
  toJson := .text
  ofJson
    | .text s => .ok s
    | _ => .error .wrongType

instance : JsonForm UInt8 where
  toJson n := .integer n.toNat
  ofJson j := (naturalBelow UInt8.size j).map UInt8.ofNat

instance : JsonForm UInt32 where
  toJson n := .integer n.toNat
  ofJson j := (naturalBelow UInt32.size j).map UInt32.ofNat

instance : JsonForm UInt64 where
  toJson n := .integer n.toNat
  ofJson j := (naturalBelow UInt64.size j).map UInt64.ofNat

instance : JsonForm Int32 where
  toJson n := .integer n.toInt
  ofJson j :=
    (integerWithin Int32.minValue.toInt Int32.maxValue.toInt j).map Int32.ofInt

instance : JsonForm Int64 where
  toJson n := .integer n.toInt
  ofJson j :=
    (integerWithin Int64.minValue.toInt Int64.maxValue.toInt j).map Int64.ofInt

instance {α : Type} [JsonForm α] : JsonForm (Option α) where
  toJson
    | none => .null
    | some x => toJson x
  ofJson
    | .null => .ok none
    | j => (ofJson j).map some
  absent := some none

instance {α : Type} [JsonForm α] : JsonForm (List α) where
  toJson xs := .list (xs.map toJson)
  ofJson
    | .list items => items.mapM ofJson
    | _ => .error .wrongType

/-- A pair is a list of two. -/
instance {α β : Type} [JsonForm α] [JsonForm β] : JsonForm (α × β) where
  toJson pair := .list [toJson pair.1, toJson pair.2]
  ofJson
    | .list [first, second] => do return (← ofJson first, ← ofJson second)
    | .list _ => .error .wrongLength
    | _ => .error .wrongType

/-- A field of a structure: its name, and the check that a value is an instance of its form. -/
structure FieldCheck where
  name : String
  check : Json → Except Mismatch Unit

/-- The field with values in `α`. -/
def FieldCheck.expect (α : Type) [JsonForm α] (name : String) : FieldCheck :=
  ⟨name, fun j => (ofJson j : Except Mismatch α).map fun _ => ()⟩

/-- The fields of a structure as they were written, each of them checked. -/
abbrev Fields := List (String × Json)

/-- Checks the known fields of a record in the order of writing and keeps them. -/
def checkFields (checks : List FieldCheck) :
    List (String × Json) → Fields → Except Mismatch Fields
  | [], kept => .ok kept
  | (name, value) :: rest, kept =>
    match checks.find? (·.name = name) with
    | none => checkFields checks rest kept
    | some field =>
      if (field? name kept).isSome then .error (.repeatedField name)
      else do
        field.check value
        checkFields checks rest (kept ++ [(name, value)])

/-- Checks the items of a list against the fields in their order of declaration. -/
def checkItems (defaults : Nat) : List FieldCheck → List Json → Except Mismatch Fields
  | [], [] => .ok []
  | [], _ :: _ => .error .wrongLength
  | checks@(_ :: _), [] => if checks.length ≤ defaults then .ok [] else .error .wrongLength
  | field :: checks, value :: rest => do
    field.check value
    return (field.name, value) :: (← checkItems defaults checks rest)

/-- The fields of a structure whose last `defaults` fields have defaults. -/
def readRecord (checks : List FieldCheck) (defaults : Nat) : Json → Except Mismatch Fields
  | .record fields => checkFields checks fields []
  | .list items => checkItems defaults checks items
  | _ => .error .wrongType

/-- The value of a field, or that of a field left out. -/
def Fields.get {α : Type} [JsonForm α] (fields : Fields) (name : String) :
    Except Mismatch α :=
  match field? name fields, (JsonForm.absent : Option α) with
  | some value, _ => ofJson value
  | none, some default => .ok default
  | none, none => .error (.missingField name)

/-- The value of a field, or a default for a field left out. -/
def Fields.getD {α : Type} [JsonForm α] (fields : Fields) (name : String) (default : α) :
    Except Mismatch α :=
  match field? name fields with
  | some value => ofJson value
  | none => .ok default

/-- The name of a variant and what it carries, if anything is written. -/
def variant? : Json → Except Mismatch (String × Option Json)
  | .text name => .ok (name, none)
  | .record [(name, content)] => .ok (name, some content)
  | _ => .error .wrongType

/-- Checks that a variant carries nothing, or `null`. -/
def carriesNothing : Option Json → Except Mismatch Unit
  | none => .ok ()
  | some .null => .ok ()
  | some _ => .error .wrongType

/-- What a variant carries. -/
def carried {α : Type} (read : Json → Except Mismatch α) : Option Json → Except Mismatch α
  | some content => read content
  | none => .error .wrongType

/-- The value of a type in a text. -/
def decode? {α : Type} [JsonForm α] (text : String) : Option α :=
  (parse? text).bind fun j => (ofJson j).toOption

end Json

end LedgerClient
