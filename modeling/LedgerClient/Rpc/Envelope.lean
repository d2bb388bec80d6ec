import LedgerClient.Json.Parser
import LedgerClient.Rpc.ErrorObject

/-!
# `LedgerClient.Rpc.Envelope`: requests and answers

A request is an object with the version, a method, an id, and
parameters that are an object, a list, or absent. The check of this
envelope is strict, and nothing else is checked here. A session named
in the parameters is taken out of them, so that no method ever sees
it among its own.

An answer repeats the id of its request: also that of a rejected one,
as far as it is an object with an id. Its fields are in the order of
their names.
-/

set_option autoImplicit false

namespace LedgerClient.Rpc

/-- A request with a sound envelope. -/
structure Request where
  method : String
  /-- An object, a list or null; without the session. -/
  params : Json
  id : Json
  sessionId : Option String

/-- A request turned down for its envelope, and the id to repeat. -/
structure Rejection where
  error : ErrorObject
  id : Json

namespace Request

/-- The parameters without the session, and the session; `none` if either cannot be. -/
def splitSession : Json → Option (Json × Option String)
  | .record fields =>
    let rest := Json.record (fields.filter fun f => f.1 ≠ "sessionId")
    match Json.field? "sessionId" fields with
    | none | some .null => some (rest, none)
    | some (.text id) => some (rest, some id)
    | some _ => none
  | .list items => some (.list items, none)
  | .null => some (.null, none)
  | _ => none

/-- The request that an object is, without regard to its id. -/
def ofFields? (fields : List (String × Json)) : Option (String × Json × Option String) := do
  let version ← (Json.field? "jsonrpc" fields).bind Json.text?
  let method ← (Json.field? "method" fields).bind Json.text?
  let (params, session) ← splitSession ((Json.field? "params" fields).getD .null)
  if version = "2.0" then some (method, params, session) else none

/-- The request in a text. -/
def parse (body : String) : Except Rejection Request :=
  match Json.read? body with
  | none => .error ⟨.parseError, .null⟩
  | some (.record fields) =>
    match Json.field? "id" fields, ofFields? fields with
    | none, _ => .error ⟨.invalidRequest, .null⟩
    | some id, none => .error ⟨.invalidRequest, id⟩
    | some id, some (method, params, session) => .ok ⟨method, params, id, session⟩
  | some _ => .error ⟨.invalidRequest, .null⟩

end Request

/-- The answer with a result. -/
def resultAnswer (result id : Json) : Json :=
  .record [("id", id), ("jsonrpc", .text "2.0"), ("result", result)]

/-- The answer with an error. -/
def errorAnswer (error : ErrorObject) (id : Json) : Json :=
  .record [("error", error.json), ("id", id), ("jsonrpc", .text "2.0")]

/-- The fields of parameters that must be an object. Absent ones have no fields. -/
def paramsObject : Json → Except ErrorObject (List (String × Json))
  | .record fields => .ok fields
  | .null => .ok []
  | _ => .error .invalidRequest

/-- The methods of the service. -/
inductive Method where
  | setup
  | reset
  | transferCrypto
deriving DecidableEq, Repr

namespace Method

/-- The name of a method. -/
def name : Method → String
  | setup => "setup"
  | reset => "reset"
  | transferCrypto => "transferCrypto"

/-- The method with a name. -/
def parse (text : String) : Except ErrorObject Method :=
  match [setup, reset, transferCrypto].find? fun m => m.name = text with
  | some method => .ok method
  | none => .error .methodNotFound

end Method

end LedgerClient.Rpc
