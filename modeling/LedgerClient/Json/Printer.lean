import LedgerClient.Json.Basic
import LedgerClient.Bytes

/-!
# `LedgerClient.Json.Printer`: writing JSON text

The compact text: no white space, fields in the order of the record,
the two characters that must be escaped and the control characters
escaped, everything else as it is. A control character is escaped by
its letter if it has one, and by its number if not.
-/

set_option autoImplicit false

namespace LedgerClient.Json

/-- One character of a text literal. -/
def escapedChar (c : Char) : List Char :=
  match c with
  | '"' => ['\\', '"']
  | '\\' => ['\\', '\\']
  | '\x08' => ['\\', 'b']
  | '\x0c' => ['\\', 'f']
  | '\n' => ['\\', 'n']
  | '\r' => ['\\', 'r']
  | '\t' => ['\\', 't']
  | c =>
    if c.toNat < 0x20 then
      ['\\', 'u', '0', '0', Hex.digit (c.toNat / 16), Hex.digit (c.toNat % 16)]
    else [c]

/-- A text literal. -/
def literalText (s : String) : String :=
  String.ofList ('"' :: s.toList.flatMap escapedChar ++ ['"'])

mutual

/-- The text of a value. An unreadable one has no text of its own and is written as `null`. -/
def render : Json → String
  | .null => "null"
  | .bool true => "true"
  | .bool false => "false"
  | .integer n => Text.Decimal.integer n
  | .real x => x.text
  | .text s => literalText s
  | .list items => "[" ++ renderItems items ++ "]"
  | .record fields => "\x7b" ++ renderFields fields ++ "\x7d"
  | .unreadable => "null"

/-- The items with commas between them. -/
def renderItems : List Json → String
  | [] => ""
  | [item] => render item
  | item :: rest => render item ++ "," ++ renderItems rest

/-- The fields with commas between them. -/
def renderFields : List (String × Json) → String
  | [] => ""
  | [(name, value)] => literalText name ++ ":" ++ render value
  | (name, value) :: rest => literalText name ++ ":" ++ render value ++ "," ++ renderFields rest

end

end LedgerClient.Json
