import LedgerClient.Error
import LedgerClient.Json.Basic

/-!
# `LedgerClient.Rpc.ErrorObject`: the errors of the service

An answer that is no result carries an error object: a code, a
message, and sometimes data. A client's error becomes one by its
kind. What the caller got wrong is an error of the parameters, what
the ledger refused has a code of its own and carries the ledger's
status, and everything else is internal.

The objects that the service writes are maps, and the text of one has
its fields in the order of their names. The records here have them in
that order.
-/

set_option autoImplicit false

namespace LedgerClient.Rpc

/-- An error of the service. -/
structure ErrorObject where
  code : Int
  message : String
  data : Option Json := none

namespace ErrorObject

/-- The body is no JSON text. -/
def parseError : ErrorObject := { code := -32700, message := "Parse error" }

/-- The body is no request. -/
def invalidRequest : ErrorObject := { code := -32600, message := "Invalid Request" }

/-- There is no such method. -/
def methodNotFound : ErrorObject := { code := -32601, message := "Method not found" }

/-- The parameters are not those of the method. -/
def invalidParams (detail : String) : ErrorObject :=
  { code := -32602, message := "Invalid params: " ++ detail }

/-- Nothing the caller could have written differently. -/
def internal (detail : String) : ErrorObject :=
  { code := -32603, message := "Internal error", data := some (.text detail) }

/-- The ledger refused. -/
def ledger (e : Error) : ErrorObject :=
  { code := -32001
    message := "Hiero error"
    data := some (.record [
      ("message", .text e.message),
      ("status", match e.status? with
        | some status => .text status.name
        | none => .null)]) }

/-- The error object of a client's error. -/
def ofError (e : Error) : ErrorObject :=
  match e with
  | .invalidArgument _ | .key _ => invalidParams e.message
  | e => if e.isLedgerError then ledger e else internal e.message

/-- The error object as it travels; data that is not there is left out. -/
def json (e : ErrorObject) : Json :=
  .record (("code", .integer e.code) ::
    (match e.data with
    | some data => [("data", data)]
    | none => []) ++
    [("message", .text e.message)])

/-- The text of an error object. -/
def text (e : ErrorObject) : String :=
  e.message ++ " (" ++ Text.Decimal.integer e.code ++ ")"

end ErrorObject

end LedgerClient.Rpc
