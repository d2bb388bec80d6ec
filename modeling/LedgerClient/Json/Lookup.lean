import LedgerClient.Json.Form

/-!
# `LedgerClient.Json.Lookup`: fields by name

Some records are not read as a whole, but asked for one field at a
time. A field that is `null` counts as left out, and a value that is
no record has no fields.
-/

set_option autoImplicit false

namespace LedgerClient.Json

/-- The value of a field, unless it is left out or `null`. -/
def given? (j : Json) (name : String) : Option Json :=
  match j with
  | .record fields =>
    match field? name fields with
    | some .null => none
    | value => value
  | _ => none

/-- The value of a type that a JSON value denotes. -/
def as? (α : Type) [JsonForm α] (j : Json) : Option α :=
  (ofJson j : Except Mismatch α).toOption

/-- The value of a type in a field. -/
def get? (α : Type) [JsonForm α] (j : Json) (name : String) : Option α :=
  (j.given? name).bind (as? α)

/-- The value of a type in a field that may be left out; `none` when there is a value and it
is of another type. -/
def optional? (α : Type) [JsonForm α] (j : Json) (name : String) : Option (Option α) :=
  match j.given? name with
  | none => some none
  | some value => (value.as? α).map some

/-- The items of a field that is a list, or of one that is left out, which has none. -/
def listOf? (j : Json) (name : String) : Option (List Json) :=
  match j.given? name with
  | none => some []
  | some (.list items) => some items
  | some _ => none

end LedgerClient.Json
