import LedgerClient.Network.Node

/-!
# `LedgerClient.Network.AddressBook`: the networks known by name

Each public network has a fixed list of nodes, given by account
number and address. Nodes that are given by address alone are
numbered from three, which is where the public networks start too.
-/

set_option autoImplicit false

namespace LedgerClient.AddressBook

/-- The main network. -/
def mainnet : List (UInt64 × String) :=
  [(3, "35.237.200.180:50211"), (4, "35.186.191.247:50211"), (5, "35.192.2.25:50211"),
   (6, "35.199.161.108:50211"), (7, "35.203.82.240:50211")]

/-- The test network. -/
def testnet : List (UInt64 × String) :=
  [(3, "0.testnet.hedera.com:50211"), (4, "1.testnet.hedera.com:50211"),
   (5, "2.testnet.hedera.com:50211"), (6, "3.testnet.hedera.com:50211")]

/-- The network of the next release. -/
def previewnet : List (UInt64 × String) :=
  [(3, "0.previewnet.hedera.com:50211"), (4, "1.previewnet.hedera.com:50211"),
   (5, "2.previewnet.hedera.com:50211"), (6, "3.previewnet.hedera.com:50211")]

/-- The entries of the network with a name. -/
def named? (name : String) : Option (List (UInt64 × String)) :=
  match name with
  | "mainnet" => some mainnet
  | "testnet" => some testnet
  | "previewnet" => some previewnet
  | _ => none

/-- The account number of the first of several nodes given by address. -/
def firstAccountNum : UInt64 := 3

/-- The nodes of a book's entries. -/
def nodes (entries : List (UInt64 × String)) : List Node :=
  entries.map fun (num, address) => ⟨⟨0, 0, num⟩, address⟩

end LedgerClient.AddressBook
