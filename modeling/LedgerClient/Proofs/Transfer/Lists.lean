import LedgerClient.Proofs.Transfer.Grouping

/-!
# `LedgerClient.Proofs.Transfer.Lists`: a body loses nothing

The lists of a body stand in two blocks, one of moves and one of
amounts, and both are made by one rule: the tokens in the order of
their first appearance, and for each of them what falls to it. `Block`
says of a block that nothing of the entries is lost or repeated by
that, and `block_distinct` proves it of both blocks at once.

* `TransferData.toOperation_grouped` is about any three lists of
  entries.
* `TransferData.tokenSum_toOperation` and `hbarSum_toOperation` say that
  grouping keeps the sums.
* `Deposit.Balances.namesOnce` is where a history of additions comes in:
  because its entries are balances, no list of amounts names an account
  twice or moves nothing.
-/

set_option autoImplicit false

namespace LedgerClient

/-- An hbar entry as it travels. -/
def HbarTransfer.toWire (t : HbarTransfer) : Wire.AccountAmount :=
  ⟨t.accountId, t.amount, t.isApproved⟩

/-- A token entry as it travels. Its token and its decimals stand in the list that it is in. -/
def TokenTransfer.toWire (t : TokenTransfer) : Wire.AccountAmount :=
  ⟨t.accountId, t.amount, t.isApproved⟩

namespace Wire

/-- No account is named twice, and each of them gains or loses something. -/
structure NamesOnce (amounts : List AccountAmount) : Prop where
  accounts : (amounts.map AccountAmount.accountId).Nodup
  nonzero : ∀ a ∈ amounts, a.amount ≠ 0

namespace CryptoTransfer

/-- What the hbar amounts of a transfer come to. -/
def hbarSum (t : CryptoTransfer) : Int :=
  (t.transfers.map fun a => a.amount.toInt).sum

/-- What the amounts of a token in a transfer come to. -/
def tokenSum (token : TokenId) (t : CryptoTransfer) : Int :=
  (((t.tokenTransfers.filter fun l => l.token = token).flatMap
    TokenTransferList.transfers).map fun a => a.amount.toInt).sum

end CryptoTransfer

end Wire

/-! ### One block -/

namespace TransferData

section
variable {ε ω : Type} (token : ε → TokenId) (travels : ε → ω)
  (part : Wire.TokenTransferList → List ω) (entries : List ε)

/-- A block has one list for each token with an entry, in the order in which the tokens first
appear. Such a list holds the entries of its token, in their order, and together the lists hold
every entry once. -/
structure Block (lists : List Wire.TokenTransferList) : Prop where
  tokens : ∀ t, t ∈ lists.map Wire.TokenTransferList.token ↔ t ∈ entries.map token
  distinct : (lists.map Wire.TokenTransferList.token).Nodup
  ordered : (lists.map Wire.TokenTransferList.token).Pairwise fun t t' =>
    (entries.map token).idxOf t < (entries.map token).idxOf t'
  nonempty : ∀ l ∈ lists, part l ≠ []
  holds : ∀ l ∈ lists, part l = (entries.filter fun e => token e = l.token).map travels
  lossless : (lists.flatMap fun l => (part l).map fun w => (l.token, w)).Perm
    (entries.map fun e => (token e, travels e))

variable {token travels part entries}

/-- The lists that are made for the different tokens of some entries are a block of them. -/
theorem block_distinct {list : TokenId → Wire.TokenTransferList} (hlist : ∀ t, (list t).token = t)
    (hpart : ∀ t, part (list t) = (entries.filter fun e => token e = t).map travels) :
    Block token travels part entries ((distinct (entries.map token)).map list) := by
  have htokens : ((distinct (entries.map token)).map list).map Wire.TokenTransferList.token =
      distinct (entries.map token) := by
    rw [List.map_map, (funext hlist : Wire.TokenTransferList.token ∘ list = id), List.map_id]
  refine ⟨fun t => ?_, ?_, ?_, fun l hl => ?_, fun l hl => ?_, ?_⟩
  · rw [htokens, mem_distinct]
  · rw [htokens]
    exact nodup_distinct _
  · rw [htokens]
    exact distinct_ordered _
  · -- A token is among the distinct ones because of an entry, and that one is in its list.
    obtain ⟨t, ht, rfl⟩ := List.mem_map.1 hl
    obtain ⟨e, he, rfl⟩ := List.mem_map.1 (mem_distinct.1 ht)
    rw [hpart]
    exact List.ne_nil_of_mem (List.mem_map_of_mem (List.mem_filter.2 ⟨he, by simp⟩))
  · obtain ⟨t, -, rfl⟩ := List.mem_map.1 hl
    rw [hpart, hlist]
  · -- Every entry is in the list of its token, so the lists together are the entries rearranged.
    have hlabelled (t : TokenId) : ((part (list t)).map fun w => ((list t).token, w)) =
        (entries.filter fun e => token e = t).map fun e => (token e, travels e) := by
      rw [hpart, hlist, List.map_map]
      refine List.map_congr_left fun e he => ?_
      have htoken : token e = t := by simpa using (List.mem_filter.1 he).2
      rw [Function.comp_apply, htoken]
    rw [List.flatMap_map]
    simp only [hlabelled]
    rw [← List.map_flatMap]
    refine (flatMap_filter_perm token (nodup_distinct _) fun e he => ?_).map _
    exact mem_distinct.2 (List.mem_map_of_mem he)

end

/-! ### Both blocks -/

/-- What a body says of a transfer: the hbar amounts, then a block with the moves of NFTs and a
block with the amounts of tokens, of which a list says the decimals that are to be checked. -/
structure Grouped (data : TransferData) (hbar : List Wire.AccountAmount)
    (nftLists amountLists : List Wire.TokenTransferList) : Prop where
  hbar : hbar = data.hbar.map HbarTransfer.toWire
  nfts : Block (fun t : NftMove => t.nftId.tokenId) NftMove.toWire
    Wire.TokenTransferList.nftTransfers data.nfts nftLists
  amounts : Block TokenTransfer.tokenId TokenTransfer.toWire
    Wire.TokenTransferList.transfers data.tokens amountLists
  nftsOnly : ∀ l ∈ nftLists, l.transfers = [] ∧ l.expectedDecimals = none
  amountsOnly : ∀ l ∈ amountLists, l.nftTransfers = []
  decimals : ∀ l ∈ amountLists, l.expectedDecimals =
    ((data.tokens.filter fun t => t.tokenId = l.token).filterMap
      TokenTransfer.expectedDecimals).getLast?

variable (data : TransferData)

/-- The list of a token's amounts has the decimals of the last entry that has any. -/
theorem expectedDecimals_amountList (token : TokenId) : (data.amountList token).expectedDecimals =
    ((data.tokens.filter fun t => t.tokenId = token).filterMap
      TokenTransfer.expectedDecimals).getLast? := by
  rw [List.getLast?_eq_head?_reverse, ← List.filterMap_reverse, List.head?_filterMap]
  rfl

/-- Whatever its entries are, a transfer is grouped without loss. -/
theorem toOperation_grouped : ∃ hbar nftLists amountLists,
    data.toOperation = .cryptoTransfer ⟨hbar, nftLists ++ amountLists⟩ ∧
      data.Grouped hbar nftLists amountLists := by
  -- The two blocks are the operation itself, and neither list has entries of the other kind.
  refine ⟨_, _, _, rfl, rfl, block_distinct (fun _ => rfl) fun _ => rfl,
    block_distinct (fun _ => rfl) fun _ => rfl, fun l hl => ?_, fun l hl => ?_, fun l hl => ?_⟩
  · obtain ⟨t, -, rfl⟩ := List.mem_map.1 hl
    exact ⟨rfl, rfl⟩
  · obtain ⟨t, -, rfl⟩ := List.mem_map.1 hl
    rfl
  · obtain ⟨t, -, rfl⟩ := List.mem_map.1 hl
    exact data.expectedDecimals_amountList t

variable {data} {t : Wire.CryptoTransfer}

/-- The hbar amounts of the body come to what those of the entries come to. -/
theorem hbarSum_toOperation (h : data.toOperation = .cryptoTransfer t) :
    t.hbarSum = (data.hbar.map fun e => e.amount.toInt).sum := by
  cases h
  rw [Wire.CryptoTransfer.hbarSum, List.map_map]
  rfl

/-- The amounts of a token in the body come to what those of the entries come to. -/
theorem tokenSum_toOperation (h : data.toOperation = .cryptoTransfer t) (token : TokenId) :
    t.tokenSum token =
      ((data.tokens.filter fun e => e.tokenId = token).map fun e => e.amount.toInt).sum := by
  cases h
  rw [Wire.CryptoTransfer.tokenSum,
    flatMap_lists_of_token data token _ (fun _ => rfl) fun hnone => by simp [amountList, hnone]]
  show ((([] : List Wire.AccountAmount) ++ _).map _).sum = _
  rw [List.nil_append, amountList, List.map_map]
  rfl

end TransferData

/-! ### The amounts of a history -/

/-- Balances are not zero. -/
theorem Deposit.Balances.amount_ne_zero {κ : Type} [DecidableEq κ]
    {deposits entries : List (Deposit κ)} (h : Balances deposits entries) {e : Deposit κ}
    (he : e ∈ entries) : e.amount ≠ 0 := by
  intro hzero
  have hsum := (h.described e he).amount
  rw [hzero, Int64.toInt_zero] at hsum
  exact (h.present e.key).1 (List.mem_map_of_mem he) hsum.symm

namespace History.Exact

variable {h : History}

/-- The hbar amounts name an account once. -/
theorem hbar_namesOnce (hexact : h.Exact) :
    Wire.NamesOnce (h.data.hbar.map HbarTransfer.toWire) := by
  refine ⟨?_, fun a ha => ?_⟩
  · have hkeys := hexact.hbar.distinct
    rw [List.map_map] at hkeys ⊢
    exact hkeys
  · obtain ⟨e, he, rfl⟩ := List.mem_map.1 ha
    exact hexact.hbar.amount_ne_zero (e := e.deposit) (List.mem_map_of_mem he)

/-- The amounts of a token name an account once. -/
theorem tokens_namesOnce (hexact : h.Exact) (token : TokenId) :
    Wire.NamesOnce
      ((h.data.tokens.filter fun t => t.tokenId = token).map TokenTransfer.toWire) := by
  refine ⟨?_, fun a ha => ?_⟩
  · have hkeys := hexact.tokens.distinct
    rw [List.map_map, List.nodup_iff_pairwise_ne, List.pairwise_map] at hkeys
    rw [List.map_map, List.nodup_iff_pairwise_ne, List.pairwise_map]
    refine (hkeys.filter _).imp_of_mem fun {e e'} he he' hne haccount => hne ?_
    -- Under one token, entries are told apart by their accounts alone.
    have htoken : e.tokenId = e'.tokenId := by
      have h1 : e.tokenId = token := by simpa using (List.mem_filter.1 he).2
      have h2 : e'.tokenId = token := by simpa using (List.mem_filter.1 he').2
      rw [h1, h2]
    exact Prod.ext htoken haccount
  · obtain ⟨e, he, rfl⟩ := List.mem_map.1 ha
    exact hexact.tokens.amount_ne_zero (e := e.deposit)
      (List.mem_map_of_mem (List.mem_filter.1 he).1)

end History.Exact

/-- For every sequence of additions, the body has the hbar entries in order, then a block of lists
of NFTs and a block of lists of amounts. A block has one list for each token with an entry, in the
order in which they first appear, and such a list is not empty and holds exactly the entries of its
token in their order, so that every entry is in one place. The lists of a block hold nothing of the
other kind, and of the decimals a list of amounts has the last that any of its entries has, and a
list of NFTs has none. No list of amounts names an account twice or holds a zero, and the sums for
hbar and for each token are those of the entries. -/
theorem grouped_without_loss (additions : List Addition) :
    let data := (History.of additions).data
    ∃ hbar nftLists amountLists,
      data.toOperation = .cryptoTransfer ⟨hbar, nftLists ++ amountLists⟩ ∧
        data.Grouped hbar nftLists amountLists ∧
        Wire.NamesOnce hbar ∧
        (∀ l ∈ amountLists, Wire.NamesOnce l.transfers) ∧
        Wire.CryptoTransfer.hbarSum ⟨hbar, nftLists ++ amountLists⟩ =
          (data.hbar.map fun e => e.amount.toInt).sum ∧
        ∀ token, Wire.CryptoTransfer.tokenSum token ⟨hbar, nftLists ++ amountLists⟩ =
          ((data.tokens.filter fun e => e.tokenId = token).map fun e => e.amount.toInt).sum := by
  intro data
  have hexact := History.of_exact additions
  obtain ⟨hbar, nftLists, amountLists, hoperation, hgrouped⟩ := data.toOperation_grouped
  refine ⟨hbar, nftLists, amountLists, hoperation, hgrouped, ?_, fun l hl => ?_,
    TransferData.hbarSum_toOperation hoperation, TransferData.tokenSum_toOperation hoperation⟩
  · -- An account that is named once among the entries is named once in the list they travel in.
    rw [hgrouped.hbar]
    exact hexact.hbar_namesOnce
  · rw [hgrouped.amounts.holds l hl]
    exact hexact.tokens_namesOnce l.token

/-- Two tokens that alternate, with the NFT of one between them. -/
example : (History.of
    [.token (.token ⟨0, 0, 9⟩) (.account ⟨0, 0, 2⟩) 5 (some 2) false,
      .nft (.nft ⟨⟨0, 0, 9⟩, 1⟩) (.account ⟨0, 0, 2⟩) (.account ⟨0, 0, 3⟩) true,
      .token (.token ⟨0, 0, 8⟩) (.account ⟨0, 0, 2⟩) 1 none false,
      .token (.token ⟨0, 0, 9⟩) (.account ⟨0, 0, 3⟩) (-5) none false]).data.toOperation =
    .cryptoTransfer ⟨[],
      [⟨⟨0, 0, 9⟩, [], [⟨⟨0, 0, 2⟩, ⟨0, 0, 3⟩, 1, true⟩], none⟩,
        ⟨⟨0, 0, 9⟩, [⟨⟨0, 0, 2⟩, 5, false⟩, ⟨⟨0, 0, 3⟩, -5, false⟩], [], some 2⟩,
        ⟨⟨0, 0, 8⟩, [⟨⟨0, 0, 2⟩, 1, false⟩], [], none⟩]⟩ := by
  decide

end LedgerClient
