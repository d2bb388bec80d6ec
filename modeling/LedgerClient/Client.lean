import LedgerClient.Crypto.Key
import LedgerClient.Network.Registry

/-!
# `LedgerClient.Client`: a network, an operator and settings

The operator is the account that pays when nothing else is said, and
the key that signs for it. Settings are checked when they are given.
The two that concern failing nodes belong to the network, and are
passed on to it unless the network is already shared with another
client.
-/

set_option autoImplicit false

namespace LedgerClient

/-- The paying account and its key. -/
structure Operator where
  accountId : AccountId
  privateKey : PrivateKey
deriving DecidableEq

/-- What requests are made with. -/
structure Client where
  network : Network
  operator : Option Operator
  config : ClientConfig

namespace Client

/-- A client with default settings and no operator. -/
def ofNetwork (network : Network) : Client :=
  let config := ClientConfig.default
  ⟨network.withBackoff (milliseconds config.nodeMinBackoffMs)
    (milliseconds config.nodeMaxBackoffMs), none, config⟩

/-- A client for the network with a name. -/
def named (name : String) : Except Error Client :=
  (Network.named name).map ofNetwork

/-- The client with an operator. -/
def withOperator (client : Client) (accountId : AccountId) (key : PrivateKey) : Client :=
  { client with operator := some ⟨accountId, key⟩ }

/-- The client with other settings, if they are sound. A network that other clients share
keeps its times for failing nodes. -/
def withConfig (client : Client) (config : ClientConfig) (shared : Bool) :
    Except Error Client := do
  config.validate
  let network := if shared then client.network
    else client.network.withBackoff (milliseconds config.nodeMinBackoffMs)
      (milliseconds config.nodeMaxBackoffMs)
  return { client with network := network, config := config }

/-- The client as it is shown: never with key material. -/
def shown (client : Client) : String :=
  let num (n : UInt64) : String := Text.Decimal.natural n.toNat
  let operator := match client.operator with
    | none => "None"
    | some op => "Some(AccountId \x7b shard: " ++ num op.accountId.shard ++ ", realm: " ++
        num op.accountId.realm ++ ", num: " ++ num op.accountId.num ++ " \x7d)"
  "Client \x7b nodes: " ++ Text.Decimal.natural client.network.nodes.length ++
    ", operator: " ++ operator ++ ", config: " ++ client.config.shown ++ " \x7d"

end Client

end LedgerClient
