import LedgerClient.Transfer.Entries

/-!
# `LedgerClient.Transfer.Operation`: a transfer as the ledger reads it

A body groups what moves by token: first a list for each token with
NFTs, then a list for each token with amounts, each block in the order
in which its tokens first appear, and within a list the entries in
their own order. A list of amounts carries the expected decimals of
the last of its entries that has any.
-/

set_option autoImplicit false

namespace LedgerClient.TransferData

/-- The distinct elements of a list, in the order of their first appearance. -/
def distinct {α : Type} [DecidableEq α] (xs : List α) : List α :=
  xs.foldl (fun seen x => if x ∈ seen then seen else seen ++ [x]) []

/-- The list of a token's NFTs. -/
def nftList (data : TransferData) (token : TokenId) : Wire.TokenTransferList where
  token := token
  transfers := []
  nftTransfers := (data.nfts.filter fun t => t.nftId.tokenId = token).map fun t =>
    ⟨t.sender, t.receiver, t.nftId.serial, t.isApproved⟩
  expectedDecimals := none

/-- The list of a token's amounts. -/
def amountList (data : TransferData) (token : TokenId) : Wire.TokenTransferList :=
  let entries := data.tokens.filter fun t => t.tokenId = token
  { token := token
    transfers := entries.map fun t => ⟨t.accountId, t.amount, t.isApproved⟩
    nftTransfers := []
    expectedDecimals := entries.reverse.findSome? TokenTransfer.expectedDecimals }

/-- The operation that carries out the transfer. -/
def toOperation (data : TransferData) : Wire.Operation :=
  .cryptoTransfer {
    transfers := data.hbar.map fun t => ⟨t.accountId, t.amount, t.isApproved⟩
    tokenTransfers :=
      (distinct (data.nfts.map fun t => t.nftId.tokenId)).map data.nftList ++
        (distinct (data.tokens.map TokenTransfer.tokenId)).map data.amountList }

end LedgerClient.TransferData
