import LedgerClient.Proofs.Transfer.Accumulation
import LedgerClient.Transfer.Operation
import Mathlib.Data.List.Induction
import Mathlib.Data.List.Nodup
import Mathlib.Data.List.Perm.Basic

/-!
# `LedgerClient.Proofs.Transfer.Grouping`: what a body says about each account

A body groups what moves by token, so an entry of the transfer is found
again in one of its lists. This module looks the entries up there, by
account and by token, as a node would:

* `Wire.Operation.hbarAmounts`, `tokenAmounts` and `nftMoves` are the
  amounts and the moves that stand in a body;
* `TransferData.hbarAmounts_toOperation`, `tokenAmounts_toOperation` and
  `nftMoves_toOperation` say that they are those of the entries, since
  each token has one list of a kind, whatever the order of the lists;
* `History.Exact.hbarAmounts_eq`, `tokenAmounts_eq` and `nftMoves_eq`
  say what they are for a history of additions: the exact sum of what
  was added, unless that is zero, and the moves in their order.
-/

set_option autoImplicit false

namespace LedgerClient

/-! ### Looking up -/

namespace Wire.Operation

/-- The amounts of hbar that stand in an operation for an account. -/
def hbarAmounts (account : AccountId) : Operation → List Int
  | .cryptoTransfer t =>
    (t.transfers.filter fun x => x.accountId = account).map fun x => x.amount.toInt

/-- The amounts of a token that stand in an operation for an account. -/
def tokenAmounts (token : TokenId) (account : AccountId) : Operation → List Int
  | .cryptoTransfer t =>
    (((t.tokenTransfers.filter fun list => list.token = token).flatMap
      TokenTransferList.transfers).filter fun x => x.accountId = account).map fun x =>
        x.amount.toInt

/-- The moves of NFTs of a token that stand in an operation. -/
def nftMoves (token : TokenId) : Operation → List NftTransfer
  | .cryptoTransfer t =>
    (t.tokenTransfers.filter fun list => list.token = token).flatMap
      TokenTransferList.nftTransfers

end Wire.Operation

/-- A move of an NFT as it travels. -/
def NftMove.toWire (move : NftMove) : Wire.NftTransfer :=
  ⟨move.sender, move.receiver, move.nftId.serial, move.isApproved⟩

/-! ### The lists of an operation -/

namespace TransferData

section
variable {α : Type} [DecidableEq α]

/-- The elements that were seen stay, and the others come behind them in order. -/
theorem distinct_concat (xs : List α) (x : α) :
    distinct (xs ++ [x]) = if x ∈ distinct xs then distinct xs else distinct xs ++ [x] := by
  rw [distinct, List.foldl_append]
  rfl

/-- Every item is among the different ones, and nothing else is. -/
theorem mem_distinct {xs : List α} {x : α} : x ∈ distinct xs ↔ x ∈ xs := by
  -- The induction is from the end, as the items are gathered.
  induction xs using List.reverseRecOn with
  | nil => rfl
  | append_singleton xs y ih =>
    rw [distinct_concat]
    by_cases hy : y ∈ distinct xs
    · rw [if_pos hy, List.mem_append, List.mem_singleton, ih]
      constructor
      · exact Or.inl
      · rintro (hx | rfl)
        · exact hx
        · exact ih.1 hy
    · rw [if_neg hy, List.mem_append, List.mem_append, ih]

/-- None of these is there twice. -/
theorem nodup_distinct (xs : List α) : (distinct xs).Nodup := by
  induction xs using List.reverseRecOn with
  | nil => exact List.nodup_nil
  | append_singleton xs y ih =>
    rw [distinct_concat]
    -- An item is only added if it is not there yet.
    by_cases hy : y ∈ distinct xs
    · rwa [if_pos hy]
    · rw [if_neg hy]
      exact List.nodup_append.2 ⟨ih, List.nodup_singleton y, fun a ha b hb hab =>
        hy (List.mem_singleton.1 hb ▸ hab ▸ ha)⟩

/-- The elements come in the order in which they first appear. -/
theorem distinct_ordered (xs : List α) :
    (distinct xs).Pairwise fun x y => xs.idxOf x < xs.idxOf y := by
  induction xs using List.reverseRecOn with
  | nil => exact .nil
  | append_singleton xs z ih =>
    -- What appeared before still appears where it did.
    have hearlier {x : α} (hx : x ∈ distinct xs) : (xs ++ [z]).idxOf x = xs.idxOf x :=
      List.idxOf_append_of_mem (mem_distinct.1 hx)
    have hrest : (distinct xs).Pairwise fun x y => (xs ++ [z]).idxOf x < (xs ++ [z]).idxOf y := by
      refine ih.imp_of_mem fun {x y} hx hy hlt => ?_
      rwa [hearlier hx, hearlier hy]
    rw [distinct_concat]
    by_cases hz : z ∈ distinct xs
    · rwa [if_pos hz]
    · rw [if_neg hz, List.pairwise_append]
      refine ⟨hrest, List.pairwise_singleton _ _, fun x hx y hy => ?_⟩
      rw [List.mem_singleton.1 hy, hearlier hx,
        List.idxOf_append_of_notMem fun h => hz (mem_distinct.2 h)]
      have hlt := List.idxOf_lt_length_of_mem (mem_distinct.1 hx)
      omega

end

/-- Elements that are taken apart by their keys are all there, each as often as before. -/
theorem flatMap_filter_perm {α κ : Type} [DecidableEq κ] (key : α → κ) {keys : List κ}
    (hdistinct : keys.Nodup) {xs : List α} (hkeys : ∀ x ∈ xs, key x ∈ keys) :
    (keys.flatMap fun k => xs.filter fun x => key x = k).Perm xs := by
  induction keys generalizing xs with
  | nil =>
    have hnone : xs = [] := List.eq_nil_iff_forall_not_mem.2 fun x hx => by simpa using hkeys x hx
    rw [hnone]
    exact .refl _
  | cons k keys ih =>
    obtain ⟨hk, hdistinct⟩ := List.nodup_cons.1 hdistinct
    -- What falls to another key is among the elements that do not fall to this one.
    have hothers : keys.flatMap (fun other => xs.filter fun x => key x = other) =
        keys.flatMap fun other =>
          (xs.filter fun x => ¬ key x = k).filter fun x => key x = other := by
      refine List.flatMap_congr fun other hother => ?_
      rw [List.filter_filter]
      refine List.filter_congr fun x _ => ?_
      have hne : other ≠ k := fun h => hk (h ▸ hother)
      by_cases hx : key x = other <;> simp [hx, hne]
    have hcovered : ∀ x ∈ xs.filter fun x => ¬ key x = k, key x ∈ keys := by
      intro x hx
      obtain ⟨hmem, hne⟩ := List.mem_filter.1 hx
      simpa [of_decide_eq_true hne] using hkeys x hmem
    have hrest := ih hdistinct hcovered
    rw [List.flatMap_cons, hothers]
    refine (hrest.append_left _).trans ?_
    simpa using List.filter_append_perm (fun x => decide (key x = k)) xs

/-- Of lists that are made for different tokens, one is for a given token, if any. -/
theorem filter_lists {tokens : List TokenId} (hdistinct : tokens.Nodup)
    {list : TokenId → Wire.TokenTransferList} (hlist : ∀ t, (list t).token = t) (token : TokenId) :
    (tokens.map list).filter (fun l => l.token = token) =
      if token ∈ tokens then [list token] else [] := by
  have htoken : (fun l : Wire.TokenTransferList => decide (l.token = token)) ∘ list =
      fun t => decide (t = token) := by
    funext t
    rw [Function.comp_apply, hlist]
  rw [List.filter_map, htoken, List.filter_eq, hdistinct.count]
  split <;> rfl

variable (data : TransferData) (token : TokenId) (account : AccountId)

/-- The amounts of hbar in the operation are those of the entries. -/
theorem hbarAmounts_toOperation : data.toOperation.hbarAmounts account =
    (data.hbar.filter fun t => t.accountId = account).map fun t => t.amount.toInt := by
  show ((data.hbar.map _).filter _).map _ = _
  rw [List.filter_map, List.map_map]
  rfl

/-- The lists of a token in the operation: one with its NFTs if it has any, and then one with its
amounts if it has any. -/
theorem lists_of_token :
    ((distinct (data.nfts.map fun t => t.nftId.tokenId)).map data.nftList ++
      (distinct (data.tokens.map TokenTransfer.tokenId)).map data.amountList).filter
        (fun l => l.token = token) =
      (if token ∈ data.nfts.map fun t => t.nftId.tokenId then [data.nftList token] else []) ++
        if token ∈ data.tokens.map TokenTransfer.tokenId then [data.amountList token] else [] := by
  rw [List.filter_append, filter_lists (nodup_distinct _) (fun _ => rfl),
    filter_lists (nodup_distinct _) (fun _ => rfl)]
  simp only [mem_distinct]

/-- What is in the lists of a token in the operation is in the list of its NFTs or in the list of
its amounts, also where there is no such list because it would be empty. -/
theorem flatMap_lists_of_token {β : Type} (part : Wire.TokenTransferList → List β)
    (hnfts : data.nfts.filter (fun t => t.nftId.tokenId = token) = [] →
      part (data.nftList token) = [])
    (htokens : data.tokens.filter (fun t => t.tokenId = token) = [] →
      part (data.amountList token) = []) :
    (((distinct (data.nfts.map fun t => t.nftId.tokenId)).map data.nftList ++
      (distinct (data.tokens.map TokenTransfer.tokenId)).map data.amountList).filter
        (fun l => l.token = token)).flatMap part =
      part (data.nftList token) ++ part (data.amountList token) := by
  -- Both halves go alike: the token has its list, or it has no entry and the list would be empty.
  rw [lists_of_token, List.flatMap_append]
  congr 1
  · split
    · exact List.flatMap_singleton part _
    next habsent =>
      rw [hnfts]
      · rfl
      · exact List.filter_eq_nil_iff.2 fun t ht hkey =>
          habsent (List.mem_map.2 ⟨t, ht, by simpa using hkey⟩)
  · split
    · exact List.flatMap_singleton part _
    next habsent =>
      rw [htokens]
      · rfl
      · exact List.filter_eq_nil_iff.2 fun t ht hkey =>
          habsent (List.mem_map.2 ⟨t, ht, by simpa using hkey⟩)

/-- The amounts of a token in the operation are those of the entries. -/
theorem tokenAmounts_toOperation : data.toOperation.tokenAmounts token account =
    (data.tokens.filter fun t => t.tokenId = token ∧ t.accountId = account).map fun t =>
      t.amount.toInt := by
  show ((List.flatMap _ (List.filter _ _)).filter _).map _ = _
  rw [flatMap_lists_of_token data token _ (fun _ => rfl) fun h => by simp [amountList, h]]
  show (([] ++ ((data.tokens.filter _).map _)).filter _).map _ = _
  rw [List.nil_append, List.filter_map, List.map_map, List.filter_filter]
  congr 1
  refine List.filter_congr fun t _ => ?_
  simp [and_comm]

/-- The moves of NFTs of a token in the operation are those of the entries. -/
theorem nftMoves_toOperation : data.toOperation.nftMoves token =
    (data.nfts.filter fun t => t.nftId.tokenId = token).map NftMove.toWire := by
  show List.flatMap _ (List.filter _ _) = _
  rw [flatMap_lists_of_token data token _ (fun h => by simp [nftList, h]) fun _ => rfl]
  exact List.append_nil _

end TransferData

/-! ### The amounts of a history -/

namespace Deposit

variable {κ : Type} [DecidableEq κ] {deposits entries : List (Deposit κ)}

/-- Where the entries are the balances of the deposits, the amounts under a key are the sum of what
was deposited, unless that is zero. -/
theorem Balances.amounts_underKey (h : Balances deposits entries) (key : κ) :
    (underKey key entries).map (fun e => e.amount.toInt) =
      if total key deposits = 0 then [] else [total key deposits] := by
  by_cases htotal : total key deposits = 0
  · rw [if_pos htotal, List.map_eq_nil_iff, underKey, List.filter_eq_nil_iff]
    intro e he hkey
    exact (h.present key).1 (List.mem_map.2 ⟨e, he, by simpa using hkey⟩) htotal
  · rw [if_neg htotal]
    obtain ⟨e, he, rfl⟩ := List.mem_map.1 ((h.present key).2 htotal)
    rw [← (h.described e he).amount]
    obtain ⟨xs, ys, rfl⟩ := List.append_of_mem he
    -- Every other entry has another key.
    have hnone {zs : List (Deposit κ)} (hzs : ∀ z ∈ zs, z ∈ xs ++ ys) :
        zs.filter (fun z => z.key = e.key) = [] := by
      refine List.filter_eq_nil_iff.2 fun z hz hkey => ?_
      exact h.key_ne z (hzs z hz) (by simpa using Eq.symm (of_decide_eq_true hkey))
    rw [underKey, List.filter_append, List.filter_cons, hnone fun z hz => by simp [hz],
      hnone fun z hz => by simp [hz]]
    simp

end Deposit

namespace History

variable {h : History}

/-- The amount of hbar for an account is the exact sum of what was added, unless that is zero. -/
theorem Exact.hbarAmounts_eq (hexact : h.Exact) (account : AccountId) :
    let sum := Deposit.total account (h.accepted.filterMap Addition.hbarDeposit?)
    h.data.toOperation.hbarAmounts account = if sum = 0 then [] else [sum] := by
  intro sum
  rw [TransferData.hbarAmounts_toOperation, ← hexact.hbar.amounts_underKey account,
    Deposit.underKey, List.filter_map, List.map_map]
  rfl

/-- The amount of a token for an account is the exact sum of what was added, unless that is
zero. -/
theorem Exact.tokenAmounts_eq (hexact : h.Exact) (token : TokenId) (account : AccountId) :
    let sum := Deposit.total (token, account) (h.accepted.filterMap Addition.tokenDeposit?)
    h.data.toOperation.tokenAmounts token account = if sum = 0 then [] else [sum] := by
  intro sum
  rw [TransferData.tokenAmounts_toOperation, ← hexact.tokens.amounts_underKey (token, account),
    Deposit.underKey, List.filter_map, List.map_map]
  congr 1
  refine List.filter_congr fun t _ => ?_
  simp [TokenTransfer.deposit]

/-- The moves of NFTs of a token are those that were added, in their order. -/
theorem Exact.nftMoves_eq (hexact : h.Exact) (token : TokenId) :
    h.data.toOperation.nftMoves token =
      ((h.accepted.filterMap Addition.nftMove?).filter fun move =>
        move.nftId.tokenId = token).map NftMove.toWire := by
  rw [TransferData.nftMoves_toOperation, hexact.nfts]

end History

end LedgerClient
