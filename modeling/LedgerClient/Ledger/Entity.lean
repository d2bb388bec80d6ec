import LedgerClient.Text.Decimal

/-!
# `LedgerClient.Ledger.Entity`: what the ledger has identifiers for

Accounts and tokens are numbered by shard, realm and number, and an
NFT is a token with a serial number. `EntityId` is one identifier of
any of the three kinds: an operation that needs one kind narrows it,
so that a token in the place of an account is an error and not a
silent mix-up.
-/

set_option autoImplicit false

namespace LedgerClient

/-- An account: `shard.realm.num`. -/
structure AccountId where
  shard : UInt64
  realm : UInt64
  num : UInt64
deriving DecidableEq, Repr, Inhabited

/-- A token type, fungible or not: `shard.realm.num`. -/
structure TokenId where
  shard : UInt64
  realm : UInt64
  num : UInt64
deriving DecidableEq, Repr, Inhabited

/-- One NFT: a token type and a serial number, `shard.realm.num/serial`. -/
structure NftId where
  tokenId : TokenId
  serial : Int64
deriving DecidableEq, Repr, Inhabited

/-- The three kinds of identifier. -/
inductive EntityKind where
  | account
  | token
  | nft
deriving DecidableEq, Repr

/-- An identifier of any kind. -/
inductive EntityId where
  | account (id : AccountId)
  | token (id : TokenId)
  | nft (id : NftId)
deriving DecidableEq, Repr

/-- Three numbers with points between them. -/
def tripleText (shard realm num : UInt64) : String :=
  Text.Decimal.natural shard.toNat ++ "." ++ Text.Decimal.natural realm.toNat ++ "." ++
    Text.Decimal.natural num.toNat

/-- The text of an account. -/
def AccountId.text (id : AccountId) : String :=
  tripleText id.shard id.realm id.num

/-- The text of a token. -/
def TokenId.text (id : TokenId) : String :=
  tripleText id.shard id.realm id.num

/-- The text of an NFT. -/
def NftId.text (id : NftId) : String :=
  id.tokenId.text ++ "/" ++ Text.Decimal.integer id.serial.toInt

/-- The name of a kind, as messages use it. -/
def EntityKind.name : EntityKind → String
  | .account => "account"
  | .token => "token"
  | .nft => "nft"

namespace EntityId

/-- The kind of an identifier. -/
def kind : EntityId → EntityKind
  | .account _ => .account
  | .token _ => .token
  | .nft _ => .nft

/-- The text of an identifier, which does not tell accounts and tokens apart. -/
def text : EntityId → String
  | .account id => id.text
  | .token id => id.text
  | .nft id => id.text

end EntityId

end LedgerClient
