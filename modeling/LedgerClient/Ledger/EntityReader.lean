import LedgerClient.Error
import LedgerClient.Text.Split

/-!
# `LedgerClient.Ledger.EntityReader`: identifiers from texts and from each other

An entity number is exactly three unsigned numerals with points
between them. An NFT is a token and a positive serial number with a
slash between them, and its serial is looked at first. A
transaction's name is an account and an instant with an at sign
between them. No white space is allowed anywhere.

Narrowing takes an identifier of any kind to one of a given kind, and
fails on the other two.
-/

set_option autoImplicit false

namespace LedgerClient

/-- The three numbers of an entity number. -/
def triple? (cs : List Char) : Option (UInt64 × UInt64 × UInt64) :=
  match Text.splitAll '.' cs with
  | [shard, realm, num] => do
    let shard ← Text.Decimal.uint64? shard
    let realm ← Text.Decimal.uint64? realm
    let num ← Text.Decimal.uint64? num
    return (shard, realm, num)
  | _ => none

/-- The account with a text. -/
def AccountId.parse (text : String) : Except Error AccountId :=
  match triple? text.toList with
  | some (shard, realm, num) => .ok ⟨shard, realm, num⟩
  | none => .error (.invalidArgument (.malformedId .account text))

/-- The token with a text. -/
def TokenId.parse (text : String) : Except Error TokenId :=
  match triple? text.toList with
  | some (shard, realm, num) => .ok ⟨shard, realm, num⟩
  | none => .error (.invalidArgument (.malformedId .token text))

/-- The NFT with a text. -/
def NftId.parse (text : String) : Except Error NftId :=
  match Text.splitFirst '/' text.toList with
  | none => .error (.invalidArgument (.malformedId .nft text))
  | some (token, serial) =>
    match (Text.Decimal.int64? serial).filter (0 < ·) with
    | none => .error (.invalidArgument (.malformedSerial text))
    | some serial => (TokenId.parse (String.ofList token)).map fun token => ⟨token, serial⟩

namespace EntityId

/-- The account that an identifier is. -/
def toAccount : EntityId → Except Error AccountId
  | account id => .ok id
  | id => .error (.invalidArgument (.wrongKind .account id))

/-- The token that an identifier is. -/
def toToken : EntityId → Except Error TokenId
  | token id => .ok id
  | id => .error (.invalidArgument (.wrongKind .token id))

/-- The NFT that an identifier is. -/
def toNft : EntityId → Except Error NftId
  | nft id => .ok id
  | id => .error (.invalidArgument (.wrongKind .nft id))

end EntityId

/-- The status with a name. -/
def Status.parse (name : String) : Except Error Status :=
  match Status.ofName? name with
  | some status => .ok status
  | none => .error (.invalidArgument (.unknownStatus name))

end LedgerClient
