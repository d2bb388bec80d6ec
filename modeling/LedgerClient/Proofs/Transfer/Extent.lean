import LedgerClient.Proofs.Transfer.Bodies
import LedgerClient.Proofs.Transfer.Grouping
import Mathlib.Algebra.GroupWithZero.Nat
import Mathlib.Algebra.Order.BigOperators.Group.List
import Mathlib.Algebra.Order.Group.Nat

/-!
# `LedgerClient.Proofs.Transfer.Extent`: how long a body can get

Lengths are announced in eight bytes, so a body has a binary form only
if it is not too long (`TransactionBody.codec_fits_iff`). An entry of a
transfer takes at most so many bytes, and the entries are at most as
many as the additions, so a bound on the additions is enough.

`CryptoTransfer.extent` counts the entries and the lists of a transfer.
Its form takes at most `57` bytes for each of them
(`CryptoTransfer.length_encode_le`), and there are at most two for each
accepted addition (`History.Exact.extent_le`): the entry, and the list
of its token.
-/

set_option autoImplicit false

namespace LedgerClient

/-! ### The form of a transfer -/

/-- A token takes twenty-four bytes. -/
theorem TokenId.length_encode (id : TokenId) : (TokenId.codec.encode id).length = 24 := by
  simp [TokenId.codec, tripleCodec, Wire.Codec.iso, Wire.Codec.refine, Wire.Codec.pair,
    Wire.Codec.uint64, Wire.Codec.fixed]

namespace Wire

/-- A list takes eight bytes and those of its elements. -/
theorem Codec.length_encode_list {α : Type} (c : Codec α) (vs : List α) :
    (c.list.encode vs).length = 8 + (vs.map fun v => (c.encode v).length).sum := by
  show (Codec.uint64.encode _ ++ vs.flatMap c.encode).length = _
  rw [List.length_append, List.length_flatMap]
  simp [Codec.uint64, Codec.fixed]

/-- What an account gains or loses takes thirty-three bytes. -/
theorem AccountAmount.length_encode (a : AccountAmount) :
    (AccountAmount.codec.encode a).length = 33 := by
  show (AccountId.codec.encode a.accountId ++
    (Codec.int64.encode a.amount ++ Codec.bool.encode a.isApproval)).length = 33
  rw [List.length_append, AccountId.length_encode]
  simp [Codec.int64, Codec.bool, Codec.uint8, Codec.refine, Codec.fixed]

/-- A move of an NFT takes fifty-seven bytes. -/
theorem NftTransfer.length_encode (t : NftTransfer) :
    (NftTransfer.codec.encode t).length = 57 := by
  show (AccountId.codec.encode t.senderAccountId ++ (AccountId.codec.encode t.receiverAccountId ++
    (Codec.int64.encode t.serialNumber ++ Codec.bool.encode t.isApproval))).length = 57
  rw [List.length_append, List.length_append, AccountId.length_encode, AccountId.length_encode]
  simp [Codec.int64, Codec.bool, Codec.uint8, Codec.refine, Codec.fixed]

/-- The decimals take at most five bytes. -/
theorem length_encode_decimals_le (decimals : Option UInt32) :
    (Codec.uint32.option.encode decimals).length ≤ 5 := by
  cases decimals <;>
    simp [Codec.option, Codec.uint32, Codec.bool, Codec.uint8, Codec.refine, Codec.fixed]

/-- A list of a token, counted with its entries. -/
def TokenTransferList.extent (l : TokenTransferList) : Nat :=
  1 + l.transfers.length + l.nftTransfers.length

/-- The list of a token takes at most 57 bytes for each of its places. -/
theorem TokenTransferList.length_encode_le (l : TokenTransferList) :
    (TokenTransferList.codec.encode l).length ≤ 57 * l.extent := by
  -- A list writes its token, two lengths and perhaps the decimals, which is less than one place
  -- more.
  have hdecimals := length_encode_decimals_le l.expectedDecimals
  show (TokenId.codec.encode l.token ++ (AccountAmount.codec.list.encode l.transfers ++
    (NftTransfer.codec.list.encode l.nftTransfers ++
      Codec.uint32.option.encode l.expectedDecimals))).length ≤ _
  simp only [List.length_append, TokenId.length_encode, Codec.length_encode_list,
    AccountAmount.length_encode, NftTransfer.length_encode, List.map_const', List.sum_replicate_nat,
    extent]
  omega

/-- The entries and the lists of a transfer, counted. -/
def CryptoTransfer.extent (t : CryptoTransfer) : Nat :=
  t.transfers.length + (t.tokenTransfers.map TokenTransferList.extent).sum

/-- So do all of them together, besides the two lengths. -/
theorem CryptoTransfer.length_encode_le (t : CryptoTransfer) :
    (CryptoTransfer.codec.encode t).length ≤ 16 + 57 * t.extent := by
  -- The bound on each list adds up over the lists, since places do.
  have hlists : (t.tokenTransfers.map fun l => (TokenTransferList.codec.encode l).length).sum ≤
      57 * (t.tokenTransfers.map TokenTransferList.extent).sum := by
    induction t.tokenTransfers with
    | nil => exact Nat.le_refl 0
    | cons l ls ih =>
      have hl := l.length_encode_le
      simp only [List.map_cons, List.sum_cons]
      omega
  show (AccountAmount.codec.list.encode t.transfers ++
    TokenTransferList.codec.list.encode t.tokenTransfers).length ≤ _
  simp only [List.length_append, Codec.length_encode_list, AccountAmount.length_encode,
    List.map_const', List.sum_replicate_nat, extent]
  omega

/-- Every list of a transfer is counted in its extent. -/
theorem CryptoTransfer.announced_of_extent_lt {t : CryptoTransfer} (h : t.extent < UInt64.size) :
    t.Announced := by
  unfold extent at h
  -- Each list takes at least one place, so there are not more lists than places.
  have hcount : t.tokenTransfers.length ≤ (t.tokenTransfers.map TokenTransferList.extent).sum := by
    induction t.tokenTransfers with
    | nil => exact Nat.le_refl 0
    | cons l ls ih =>
      simp only [List.map_cons, List.sum_cons, List.length_cons, TokenTransferList.extent]
      omega
  refine ⟨by omega, by omega, fun l hl => ?_⟩
  have hlist : l.extent ≤ (t.tokenTransfers.map TokenTransferList.extent).sum :=
    List.le_sum_of_mem (List.mem_map_of_mem hl)
  have hextent : l.extent = 1 + l.transfers.length + l.nftTransfers.length := rfl
  exact ⟨by omega, by omega⟩

/-- A body takes so many bytes beside those of its memo and of its transfer. -/
theorem TransactionBody.length_encode_le (b : TransactionBody) {t : CryptoTransfer}
    (hoperation : b.operation = .cryptoTransfer t) :
    (TransactionBody.codec.encode b).length ≤ 104 + b.memo.utf8ByteSize + 57 * t.extent := by
  have htransfer := t.length_encode_le
  rw [TransactionBody.encode_eq, List.length_append, List.length_append,
    TransactionId.length_encode, AccountId.length_encode]
  -- The body is unfolded to its fields, of which only the memo and the transfer have no fixed
  -- length.
  show 36 + (24 + (Codec.uint64.encode b.transactionFee ++
    (Codec.int64.encode b.validDurationSecs ++
      ((Codec.uint64.encode _ ++ Bytes.ofText b.memo) ++
        Operation.codec.encode b.operation))).length) ≤ _
  rw [hoperation]
  show 36 + (24 + (_ ++ (_ ++ (_ ++
    (Codec.uint32.encode 0 ++ CryptoTransfer.codec.encode t)))).length) ≤ _
  simp only [List.length_append, Codec.uint64, Codec.int64, Codec.uint32, Codec.fixed,
    Bytes.length_littleEndian, Bytes.length_ofText]
  omega

end Wire

/-! ### The extent of a history -/

namespace TransferData

/-- There are no more different items than items. -/
theorem length_distinct_le {α : Type} [DecidableEq α] (xs : List α) :
    (distinct xs).length ≤ xs.length :=
  (List.subperm_of_subset (nodup_distinct xs) fun _ => mem_distinct.1).length_le

/-- The elements that fall to one key or another are as many as all of them. -/
theorem sum_length_filter {α κ : Type} [DecidableEq κ] (key : α → κ) (xs : List α) :
    ((distinct (xs.map key)).map fun k => (xs.filter fun x => key x = k).length).sum =
      xs.length := by
  rw [← List.length_flatMap]
  refine (flatMap_filter_perm key (nodup_distinct _) fun x hx => ?_).length_eq
  exact mem_distinct.2 (List.mem_map_of_mem hx)

/-- There are at most two lists or entries in the operation for each entry of the transfer. -/
theorem toOperation_extent_le (data : TransferData) :
    ∃ t, data.toOperation = .cryptoTransfer t ∧
      t.extent ≤ 2 * (data.hbar.length + data.tokens.length + data.nfts.length) := by
  refine ⟨_, rfl, ?_⟩
  -- A token has a list because of an entry, so there are not more lists than entries.
  have hnftCount := length_distinct_le (data.nfts.map fun t => t.nftId.tokenId)
  have htokenCount := length_distinct_le (data.tokens.map TokenTransfer.tokenId)
  have hnfts := sum_length_filter (fun t : NftMove => t.nftId.tokenId) data.nfts
  have htokens := sum_length_filter TokenTransfer.tokenId data.tokens
  rw [List.length_map] at hnftCount htokenCount
  simp only [Wire.CryptoTransfer.extent, Wire.TokenTransferList.extent, List.map_append,
    List.map_map, List.sum_append, Function.comp_def, nftList, amountList, List.length_map,
    List.length_nil, Nat.add_zero, List.sum_map_add, List.map_const', List.sum_replicate_nat,
    Nat.mul_one]
  omega

end TransferData

/-- There are at most as many entries as deposits. -/
theorem Deposit.Balances.length_le {κ : Type} [DecidableEq κ] {deposits entries : List (Deposit κ)}
    (h : Balances deposits entries) : entries.length ≤ deposits.length := by
  -- Entries have different keys, and each is the key of a deposit.
  have hsubset : entries.map Deposit.key ⊆ deposits.map Deposit.key := by
    intro key hkey
    by_contra habsent
    refine (h.present key).1 hkey ?_
    have hnone : underKey key deposits = [] := List.filter_eq_nil_iff.2 fun d hd hk =>
      habsent (List.mem_map.2 ⟨d, hd, by simpa using hk⟩)
    rw [total, hnone]
    rfl
  simpa using (List.subperm_of_subset h.distinct hsubset).length_le

/-- An addition is to one of the three lists. -/
theorem Addition.length_parts_le (a : Addition) :
    a.hbarDeposit?.toList.length + a.tokenDeposit?.toList.length +
      a.nftMove?.toList.length ≤ 1 := by
  rcases a with account | ⟨t, account⟩ | ⟨n, sender, receiver⟩
  · cases account <;> first | exact Nat.le_refl 1 | exact Nat.zero_le 1
  · cases t <;> cases account <;> first | exact Nat.le_refl 1 | exact Nat.zero_le 1
  · cases n <;> cases sender <;> cases receiver <;>
      first | exact Nat.le_refl 1 | exact Nat.zero_le 1

/-- So additions are to the three lists together at most as many as they are. -/
theorem Addition.length_filterMap_parts_le (additions : List Addition) :
    (additions.filterMap hbarDeposit?).length + (additions.filterMap tokenDeposit?).length +
      (additions.filterMap nftMove?).length ≤ additions.length := by
  induction additions with
  | nil => exact Nat.le_refl 0
  | cons a additions ih =>
    -- Each addition is to one of the three lists at most.
    have hcons {β : Type} (f : Addition → Option β) : ((a :: additions).filterMap f).length =
        (f a).toList.length + (additions.filterMap f).length := by
      cases hf : f a <;> simp [hf, Nat.add_comm]
    have ha := a.length_parts_le
    rw [hcons, hcons, hcons, List.length_cons]
    omega

/-- There are at most two lists or entries in the operation for each accepted addition. -/
theorem History.Exact.extent_le {h : History} (hexact : h.Exact) :
    ∃ t, h.data.toOperation = .cryptoTransfer t ∧ t.extent ≤ 2 * h.accepted.length := by
  obtain ⟨t, ht, hextent⟩ := h.data.toOperation_extent_le
  -- Every accepted addition brings at most one entry, and every entry at most two places.
  refine ⟨t, ht, ?_⟩
  have hparts := Addition.length_filterMap_parts_le h.accepted
  have hhbar := hexact.hbar.length_le
  have htokens := hexact.tokens.length_le
  rw [hexact.nfts] at hextent
  rw [List.length_map] at hhbar htokens
  omega

end LedgerClient
