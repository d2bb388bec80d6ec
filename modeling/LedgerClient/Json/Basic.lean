import LedgerClient.Json.Binary64

/-!
# `LedgerClient.Json.Basic`: JSON values

Two readings of a JSON text are needed. A *typed* reading knows which
fields it wants: it must notice a field that is written twice, and it
never looks into the fields it does not know. An *untyped* reading
keeps everything, so everything in it must denote something, and of
two fields with one name the last one counts.

`Json` serves both. A record is the list of its fields as written,
and a well-formed scalar without a value (a number beyond the range
of doubles, a text with half of a surrogate pair) is `unreadable`. A
typed reading can skip over such a value. `settled` is the passage to
the untyped reading: it fails on an unreadable part and on nesting
deeper than `maxDepth`, sorts the fields by name, and keeps the last
of each name.
-/

set_option autoImplicit false

namespace LedgerClient

/-- A JSON value, with the fields of a record in the order in which they were written. -/
inductive Json where
  | null
  | bool (value : Bool)
  | integer (value : Int)
  | real (value : Binary64)
  | text (value : String)
  | list (items : List Json)
  | record (fields : List (String × Json))
  | unreadable
deriving Inhabited

namespace Json

/-- Lists and records may nest this deep in a value that is kept. -/
def maxDepth : Nat := 127

/-- Stores a field in a list sorted by name, replacing one of the same name. -/
def insertField (name : String) (value : Json) : List (String × Json) → List (String × Json)
  | [] => [(name, value)]
  | (n, v) :: rest =>
    if name < n then (name, value) :: (n, v) :: rest
    else if name = n then (name, value) :: rest
    else (n, v) :: insertField name value rest

/-- The fields sorted by name, the last one of each name. -/
def sortFields (fields : List (String × Json)) : List (String × Json) :=
  fields.foldl (fun sorted (name, value) => insertField name value sorted) []

mutual

/-- The value with `depth` levels of nesting to spare; see `settled`. -/
def settledWithin : Nat → Json → Option Json
  | _, .unreadable => none
  | 0, .list _ => none
  | depth + 1, .list items => (settledItems depth items).map .list
  | 0, .record _ => none
  | depth + 1, .record fields =>
    (settledFields depth fields).map fun fields => .record (sortFields fields)
  | _, .null => some .null
  | _, .bool b => some (.bool b)
  | _, .integer n => some (.integer n)
  | _, .real x => some (.real x)
  | _, .text s => some (.text s)

/-- Every item of a list settled. -/
def settledItems : Nat → List Json → Option (List Json)
  | _, [] => some []
  | depth, item :: rest => do
    let item ← settledWithin depth item
    let rest ← settledItems depth rest
    return item :: rest

/-- Every field of a record settled, in the order of writing. -/
def settledFields : Nat → List (String × Json) → Option (List (String × Json))
  | _, [] => some []
  | depth, (name, value) :: rest => do
    let value ← settledWithin depth value
    let rest ← settledFields depth rest
    return (name, value) :: rest

end

/-- The value that an untyped reading keeps: every part denotes something, the nesting is
bounded, and a record has each name once, in order. -/
def settled (json : Json) : Option Json :=
  settledWithin maxDepth json

/-- The value of a field; of several with that name, the last. -/
def field? (name : String) (fields : List (String × Json)) : Option Json :=
  (fields.reverse.find? fun f => f.1 = name).map (·.2)

/-- The text, if the value is one. -/
def text? : Json → Option String
  | .text s => some s
  | _ => none

end Json

end LedgerClient
