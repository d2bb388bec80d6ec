import LedgerClient.Ledger.EntityReader

/-!
# `LedgerClient.Transfer.Entries`: who gives and who gets

A transfer keeps three lists in the order in which their entries were
made. Adding to an account that has an entry folds the amount into
it, so no list names an account twice: hbar entries are told apart by
account, token entries by token and account. The approval flag is
that of the latest addition, and so are the expected decimals of the
latest addition that gave any. An entry whose amount comes to zero
disappears. NFT entries are never merged, since each moves another
thing.

An addition that fails leaves the lists as they were.
-/

set_option autoImplicit false

namespace LedgerClient

/-- What an account gains in tinybars, or loses when the amount is negative. -/
structure HbarTransfer where
  accountId : AccountId
  amount : Int64
  isApproved : Bool
deriving DecidableEq, Repr

/-- What an account gains or loses of a token, in its smallest unit. -/
structure TokenTransfer where
  tokenId : TokenId
  accountId : AccountId
  amount : Int64
  expectedDecimals : Option UInt32
  isApproved : Bool
deriving DecidableEq, Repr

/-- An NFT that changes hands. -/
structure NftMove where
  nftId : NftId
  sender : AccountId
  receiver : AccountId
  isApproved : Bool
deriving DecidableEq, Repr

/-- The three lists of a transfer. -/
structure TransferData where
  hbar : List HbarTransfer := []
  tokens : List TokenTransfer := []
  nfts : List NftMove := []
deriving DecidableEq, Repr

namespace TransferData

/-- The sum of two amounts, or `none` when it needs more than 64 bits. -/
def sum? (a b : Int64) : Option Int64 :=
  let sum := a.toInt + b.toInt
  if Int64.minValue.toInt ≤ sum ∧ sum ≤ Int64.maxValue.toInt then some (Int64.ofInt sum)
  else none

/-- The sum of what an entry holds and what is added to it. -/
def accumulate (current amount : Int64) : Except Error Int64 :=
  match sum? current amount with
  | some sum => .ok sum
  | none => .error (.invalidArgument (.totalOverflow current amount))

/-- Adds to the entry that `same` singles out, where `merge` says what becomes of it, or puts
a new entry at the end if there is none. -/
def addTo {α : Type} (same : α → Bool) (merge : α → Except Error (Option α)) (new : α) :
    List α → Except Error (List α)
  | [] => .ok [new]
  | entry :: rest =>
    if same entry then
      (merge entry).map fun
        | some merged => merged :: rest
        | none => rest
    else (addTo same merge new rest).map (entry :: ·)

/-- Checks that an amount moves something. -/
def checkNonzero (amount : Int64) : Except Error Unit :=
  if amount = 0 then .error (.invalidArgument .zeroAmount) else .ok ()

/-- Adds an amount of hbar to an account. -/
def addHbar (data : TransferData) (account : EntityId) (amount : Int64) (isApproved : Bool) :
    Except Error TransferData := do
  let accountId ← account.toAccount
  checkNonzero amount
  let merge (entry : HbarTransfer) : Except Error (Option HbarTransfer) := do
    let sum ← accumulate entry.amount amount
    return if sum = 0 then none
      else some { entry with amount := sum, isApproved := isApproved }
  let hbar ← addTo (·.accountId = accountId) merge ⟨accountId, amount, isApproved⟩ data.hbar
  return { data with hbar := hbar }

/-- Adds an amount of a token to an account; the ledger checks the decimals if they are
given. -/
def addToken (data : TransferData) (token account : EntityId) (amount : Int64)
    (decimals : Option UInt32) (isApproved : Bool) : Except Error TransferData := do
  let tokenId ← token.toToken
  let accountId ← account.toAccount
  checkNonzero amount
  let merge (entry : TokenTransfer) : Except Error (Option TokenTransfer) := do
    let sum ← accumulate entry.amount amount
    return if sum = 0 then none
      else some { entry with
        amount := sum
        isApproved := isApproved
        expectedDecimals := decimals.or entry.expectedDecimals }
  let tokens ← addTo (fun entry => entry.tokenId = tokenId ∧ entry.accountId = accountId)
    merge ⟨tokenId, accountId, amount, decimals, isApproved⟩ data.tokens
  return { data with tokens := tokens }

/-- Moves an NFT from one account to another. -/
def addNft (data : TransferData) (nft sender receiver : EntityId) (isApproved : Bool) :
    Except Error TransferData := do
  let nftId ← nft.toNft
  let sender ← sender.toAccount
  let receiver ← receiver.toAccount
  return { data with nfts := data.nfts ++ [⟨nftId, sender, receiver, isApproved⟩] }

/-- The lists that come of adding given entries one by one: first the hbar, then the tokens,
then the NFTs. -/
def ofTransfers (hbar : List HbarTransfer) (tokens : List TokenTransfer)
    (nfts : List NftMove) : Except Error TransferData := do
  let data ← hbar.foldlM
    (fun (data : TransferData) t => data.addHbar (.account t.accountId) t.amount t.isApproved)
    {}
  let data ← tokens.foldlM (fun (data : TransferData) t =>
    data.addToken (.token t.tokenId) (.account t.accountId) t.amount t.expectedDecimals
      t.isApproved) data
  nfts.foldlM (fun (data : TransferData) t =>
    data.addNft (.nft t.nftId) (.account t.sender) (.account t.receiver) t.isApproved) data

end TransferData

end LedgerClient
