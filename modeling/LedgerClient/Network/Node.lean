import LedgerClient.Error
import LedgerClient.Text.Split

/-!
# `LedgerClient.Network.Node`: where requests go

A node is the account that a transaction's body names as its target
and the address at which it is reached. An address is a host, a
colon, and a number of sixteen bits; the host is everything before
the last colon, and only its being empty is ruled out.
-/

set_option autoImplicit false

namespace LedgerClient

/-- A node's account and address. -/
structure Node where
  accountId : AccountId
  address : String
deriving DecidableEq, Repr

namespace Node

/-- Whether a text is a host, a colon and a number of sixteen bits. -/
def isAddress (cs : List Char) : Bool :=
  match Text.splitLast ':' cs with
  | some (host, number) => host ≠ [] && (Text.Decimal.below? UInt16.size number).isSome
  | none => false

/-- The node with an account and an address. -/
def make (accountId : AccountId) (address : String) : Except Error Node :=
  if isAddress address.toList then .ok ⟨accountId, address⟩
  else .error (.invalidArgument (.malformedAddress address))

/-- The text of a node: `account@address`. -/
def text (node : Node) : String :=
  node.accountId.text ++ "@" ++ node.address

end Node

end LedgerClient
