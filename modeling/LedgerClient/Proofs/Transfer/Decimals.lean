import LedgerClient.Proofs.Transfer.Lists

/-!
# `LedgerClient.Proofs.Transfer.Decimals`: which decimals are checked

The ledger checks the decimals of a token if the list of its amounts
has any. They were given for one account, and stand in the entry of
that account as long as it has one: `Deposit.Lasts` says that some were
given for a key whose sum has not been zero since, and
`Deposit.lasts_iff` that this is what `Deposit.decimals?` computes.

So decimals that are given with an addition may never reach the
ledger, also where the token has other entries
(`decimals_gone_with_their_entry`). `decimals_reach_body_iff` says
exactly when they do.
-/

set_option autoImplicit false

namespace LedgerClient

/-- The lists of an operation that hold amounts of a token. -/
def Wire.Operation.amountLists (token : TokenId) : Operation → List TokenTransferList
  | .cryptoTransfer t => t.tokenTransfers.filter fun l => l.token = token ∧ l.transfers ≠ []

/-! ### Decimals that last -/

namespace Deposit

variable {κ : Type} [DecidableEq κ]

/-- Decimals were given for a key whose sum has not been zero since. -/
def Lasts (key : κ) (deposits : List (Deposit κ)) : Prop :=
  ∃ before d after, deposits = before ++ d :: after ∧ d.key = key ∧ d.decimals.isSome ∧
    ∀ next, next <+: after → total key (before ++ d :: next) ≠ 0

section
variable (key : κ) (deposits : List (Deposit κ)) (d : Deposit κ)

/-- A key with a sum was created by a deposit. -/
theorem isSome_createdAt? (h : total key deposits ≠ 0) : (createdAt? key deposits).isSome := by
  induction deposits using List.reverseRecOn with
  | nil => exact absurd rfl h
  | append_singleton deposits d ih =>
    rw [createdAt?_concat]
    split
    · rfl
    next hnot =>
      -- The deposit did not create the key, so the key had a sum before.
      refine ih fun hzero => ?_
      rw [total_concat, hzero] at h
      by_cases hkey : d.key = key
      · exact hnot ⟨hkey, hzero⟩
      · simp [hkey] at h

/-- The decimals of a key were given by one of the deposits to it. -/
theorem exists_of_decimals? {decimals : UInt32} (h : decimals? key deposits = some decimals) :
    ∃ d ∈ deposits, d.key = key ∧ d.decimals = some decimals := by
  unfold decimals? at h
  split at h
  · obtain ⟨d, hd, hdecimals⟩ := List.mem_filterMap.1 (List.mem_of_getLast? h)
    obtain ⟨hmem, hkey⟩ := List.mem_filter.1 hd
    exact ⟨d, List.mem_of_mem_drop hmem, by simpa using hkey, hdecimals⟩
  · cases h

variable {key deposits d}

/-- A deposit that gives decimals and leaves a sum makes them last. -/
theorem lasts_concat_self (hdecimals : d.decimals.isSome)
    (htotal : total d.key (deposits ++ [d]) ≠ 0) : Lasts d.key (deposits ++ [d]) := by
  refine ⟨deposits, d, [], rfl, rfl, hdecimals, fun next hnext => ?_⟩
  rw [List.prefix_nil.1 hnext]
  exact htotal

/-- Decimals go on to last if another deposit leaves a sum. -/
theorem Lasts.concat (h : Lasts key deposits) (htotal : total key (deposits ++ [d]) ≠ 0) :
    Lasts key (deposits ++ [d]) := by
  obtain ⟨before, d', after, rfl, hkey, hdecimals, hsums⟩ := h
  refine ⟨before, d', after ++ [d], by simp, hkey, hdecimals, fun next hnext => ?_⟩
  rcases List.prefix_concat_iff.1 hnext with rfl | hnext
  · simpa using htotal
  · exact hsums next hnext

/-- A sum is left where decimals last. -/
theorem Lasts.total_ne_zero (h : Lasts key deposits) : total key deposits ≠ 0 := by
  obtain ⟨before, d, after, rfl, -, -, hsums⟩ := h
  exact hsums after (List.prefix_refl after)

/-- Decimals that last were given by the last deposit, or they lasted before it. -/
theorem Lasts.of_concat (h : Lasts key (deposits ++ [d])) :
    (d.key = key ∧ d.decimals.isSome) ∨ Lasts key deposits := by
  -- Either no deposit follows the one with the decimals, or the last of those that follow is this
  -- one.
  obtain ⟨before, d', after, hsplit, hkey, hdecimals, hsums⟩ := h
  rcases List.eq_nil_or_concat' after with rfl | ⟨after, last, rfl⟩
  · obtain ⟨-, hd⟩ := List.append_inj' hsplit rfl
    cases hd
    exact .inl ⟨hkey, hdecimals⟩
  · rw [← List.cons_append, ← List.append_assoc] at hsplit
    obtain ⟨rfl, -⟩ := List.append_inj' hsplit rfl
    exact .inr ⟨before, d', after, rfl, hkey, hdecimals, fun next hnext =>
      hsums next (hnext.trans (List.prefix_append after [last]))⟩

/-- Decimals last exactly for the keys that have a sum and decimals. -/
theorem lasts_iff : Lasts key deposits ↔
    total key deposits ≠ 0 ∧ (decimals? key deposits).isSome := by
  induction deposits using List.reverseRecOn with
  | nil => exact iff_of_false (fun h => h.total_ne_zero rfl) fun h => h.1 rfl
  | append_singleton deposits d ih =>
    by_cases hkey : d.key = key
    · subst hkey
      by_cases htotal : total d.key deposits = 0
      · -- The deposit creates its key, so nothing that was given before it counts.
        rw [decimals?_concat_of_total_eq_zero _ _ htotal]
        constructor
        · intro h
          refine ⟨h.total_ne_zero, h.of_concat.elim And.right fun hlasts => ?_⟩
          exact absurd htotal hlasts.total_ne_zero
        · rintro ⟨hsum, hdecimals⟩
          exact lasts_concat_self hdecimals hsum
      · rw [decimals?_concat_of_total_ne_zero _ _ htotal (isSome_createdAt? _ _ htotal),
          Option.isSome_or, Bool.or_eq_true]
        constructor
        · intro h
          exact ⟨h.total_ne_zero, h.of_concat.imp And.right fun hlasts => (ih.1 hlasts).2⟩
        · rintro ⟨hsum, hdecimals | hdecimals⟩
          · exact lasts_concat_self hdecimals hsum
          · exact (ih.2 ⟨htotal, hdecimals⟩).concat hsum
    · -- A deposit to another key changes neither the sum nor the decimals.
      have hsame : total key (deposits ++ [d]) = total key deposits := by
        simp [total_concat, hkey]
      rw [decimals?_concat_of_ne _ _ _ hkey, hsame, ← ih]
      constructor
      · intro h
        exact h.of_concat.resolve_left fun hd => hkey hd.1
      · intro h
        exact h.concat (by rw [hsame]; exact h.total_ne_zero)

end

end Deposit

/-! ### Decimals in a body -/

namespace TransferData

variable (data : TransferData) (token : TokenId)

/-- A token with entries has one list of amounts, and any other token has none. -/
theorem amountLists_toOperation : data.toOperation.amountLists token =
    if token ∈ data.tokens.map TokenTransfer.tokenId then [data.amountList token] else [] := by
  have hlists : data.toOperation.amountLists token =
      (((distinct (data.nfts.map fun t => t.nftId.tokenId)).map data.nftList ++
        (distinct (data.tokens.map TokenTransfer.tokenId)).map data.amountList).filter
          (fun l => l.token = token)).filter (fun l => l.transfers ≠ []) := by
    rw [List.filter_filter]
    refine List.filter_congr fun l _ => ?_
    rw [Bool.decide_and, Bool.and_comm]
  have hnfts : (data.nftList token).transfers = [] := rfl
  -- Lists without amounts are dropped, so the list of NFTs of the token never counts here.
  rw [hlists, lists_of_token, List.filter_append]
  by_cases hmem : token ∈ data.tokens.map TokenTransfer.tokenId
  · have hamounts : (data.amountList token).transfers ≠ [] := by
      obtain ⟨e, he, rfl⟩ := List.mem_map.1 hmem
      exact List.ne_nil_of_mem (List.mem_map_of_mem (List.mem_filter.2 ⟨he, by simp⟩))
    rw [if_pos hmem]
    split <;> simp [hnfts, hamounts]
  · rw [if_neg hmem]
    split <;> simp [hnfts]

end TransferData

namespace History.Exact

variable {h : History} {token : TokenId}

/-- The decimals in the entries of a token are those of its accounts with a sum. -/
theorem mem_decimals_iff (hexact : h.Exact) {decimals : UInt32} :
    decimals ∈ (h.data.tokens.filter fun t => t.tokenId = token).filterMap
        TokenTransfer.expectedDecimals ↔
      ∃ account, Deposit.total (token, account) (h.accepted.filterMap Addition.tokenDeposit?) ≠ 0 ∧
        Deposit.decimals? (token, account) (h.accepted.filterMap Addition.tokenDeposit?) =
          some decimals := by
  rw [List.mem_filterMap]
  constructor
  · rintro ⟨e, he, hdecimals⟩
    -- Entries and sums correspond one to one, and an entry has the decimals of its sum.
    obtain ⟨hmem, htoken⟩ := List.mem_filter.1 he
    obtain rfl : e.tokenId = token := by simpa using htoken
    have hentry : e.deposit ∈ h.data.tokens.map TokenTransfer.deposit := List.mem_map_of_mem hmem
    refine ⟨e.accountId, (hexact.tokens.present _).1 (List.mem_map_of_mem hentry), ?_⟩
    exact (hexact.tokens.described _ hentry).decimals.symm.trans hdecimals
  · rintro ⟨account, htotal, hdecimals⟩
    obtain ⟨d, hd, hkey⟩ := List.mem_map.1 ((hexact.tokens.present _).2 htotal)
    obtain ⟨e, he, rfl⟩ := List.mem_map.1 hd
    have htoken : e.tokenId = token := congrArg Prod.fst hkey
    refine ⟨e, List.mem_filter.2 ⟨he, by simpa using htoken⟩, ?_⟩
    have hdescribed := (hexact.tokens.described _ hd).decimals
    rw [hkey] at hdescribed
    exact hdescribed.trans hdecimals

end History.Exact

/-- For every sequence of additions, and every token that has an entry in the end: if no other
decimals than `d` were ever given for it, then it has one list of amounts in the body, and this list
has the decimals `d` exactly if some were given for an account of the token whose sum has not been
zero since. -/
theorem decimals_reach_body_iff (additions : List Addition) (token : TokenId) (d : UInt32) :
    let h := History.of additions
    let deposits := h.accepted.filterMap Addition.tokenDeposit?
    (∀ x ∈ deposits, x.key.1 = token → x.decimals = none ∨ x.decimals = some d) →
    (∃ e ∈ h.data.tokens, e.tokenId = token) →
    ∃ l, h.data.toOperation.amountLists token = [l] ∧
      (l.expectedDecimals = some d ↔ ∃ account, Deposit.Lasts (token, account) deposits) := by
  intro h deposits hsame hentry
  have hexact : h.Exact := History.of_exact additions
  obtain ⟨e, he, htoken⟩ := hentry
  refine ⟨h.data.amountList token, ?_, ?_⟩
  · rw [h.data.amountLists_toOperation, if_pos (List.mem_map.2 ⟨e, he, htoken⟩)]
  · rw [h.data.expectedDecimals_amountList]
    -- Whatever decimals an account of the token has, they are `d`.
    have honly {account : AccountId} {decimals : UInt32}
        (hdecimals : Deposit.decimals? (token, account) deposits = some decimals) :
        decimals = d := by
      obtain ⟨x, hx, hkey, hgiven⟩ := Deposit.exists_of_decimals? _ _ hdecimals
      rcases hsame x hx (congrArg Prod.fst hkey) with hnone | hsome
      · rw [hnone] at hgiven
        cases hgiven
      · rw [hsome] at hgiven
        cases hgiven
        rfl
    constructor
    · intro hlast
      obtain ⟨account, htotal, hdecimals⟩ := hexact.mem_decimals_iff.1 (List.mem_of_getLast? hlast)
      exact ⟨account, Deposit.lasts_iff.2 ⟨htotal, by rw [hdecimals]; rfl⟩⟩
    · rintro ⟨account, hlasts⟩
      obtain ⟨htotal, hsome⟩ := Deposit.lasts_iff.1 hlasts
      obtain ⟨decimals, hdecimals⟩ := Option.isSome_iff_exists.1 hsome
      -- There are decimals, so the list has a last one, and all of them are the same.
      have hne := List.ne_nil_of_mem (hexact.mem_decimals_iff.2 ⟨account, htotal, hdecimals⟩)
      obtain ⟨account', -, hlast⟩ := hexact.mem_decimals_iff.1 (List.getLast_mem hne)
      rw [List.getLast?_eq_some_getLast hne, honly hlast]

/-- Both accounts of a token get decimals, and then the first is left with nothing. -/
def decimalsTwice : List Addition :=
  [.token (.token ⟨0, 0, 5005⟩) (.account ⟨0, 0, 1001⟩) 5 (some 2) false,
    .token (.token ⟨0, 0, 5005⟩) (.account ⟨0, 0, 1002⟩) 3 (some 2) false,
    .token (.token ⟨0, 0, 5005⟩) (.account ⟨0, 0, 1001⟩) (-5) none false]

/-- Those of the second account last, and reach the body. -/
theorem decimals_reach_body_twice :
    let h := History.of decimalsTwice
    let deposits := h.accepted.filterMap Addition.tokenDeposit?
    (∀ x ∈ deposits, x.key.1 = ⟨0, 0, 5005⟩ → x.decimals = none ∨ x.decimals = some 2) ∧
      (∃ e ∈ h.data.tokens, e.tokenId = ⟨0, 0, 5005⟩) ∧
      Deposit.Lasts (⟨0, 0, 5005⟩, ⟨0, 0, 1002⟩) deposits ∧
      ∃ l, h.data.toOperation.amountLists ⟨0, 0, 5005⟩ = [l] ∧ l.expectedDecimals = some 2 := by
  intro h deposits
  have hsame : ∀ x ∈ deposits,
      x.key.1 = ⟨0, 0, 5005⟩ → x.decimals = none ∨ x.decimals = some 2 := by decide
  have hentry : ∃ e ∈ h.data.tokens, e.tokenId = ⟨0, 0, 5005⟩ := by decide
  have hlasts : Deposit.Lasts (⟨0, 0, 5005⟩, ⟨0, 0, 1002⟩) deposits :=
    Deposit.lasts_iff.2 (by decide)
  obtain ⟨l, hlist, hiff⟩ := decimals_reach_body_iff decimalsTwice ⟨0, 0, 5005⟩ 2 hsame hentry
  exact ⟨hsame, hentry, hlasts, l, hlist, hiff.2 ⟨_, hlasts⟩⟩

/-- Decimals are given for the first account of a token, then another account gets some of it, and
then the first account is left with nothing. -/
def decimalsThenUndone : List Addition :=
  [.token (.token ⟨0, 0, 5005⟩) (.account ⟨0, 0, 1001⟩) 5 (some 2) false,
    .token (.token ⟨0, 0, 5005⟩) (.account ⟨0, 0, 1002⟩) 3 none false,
    .token (.token ⟨0, 0, 5005⟩) (.account ⟨0, 0, 1001⟩) (-5) none false]

/-- All additions are accepted, the only decimals that are given for the token are `2`, and the
token has an entry, but its list has no decimals. -/
theorem decimals_gone_with_their_entry :
    let h := History.of decimalsThenUndone
    let deposits := h.accepted.filterMap Addition.tokenDeposit?
    h.accepted = decimalsThenUndone ∧
      (∃ x ∈ deposits, x.key.1 = ⟨0, 0, 5005⟩ ∧ x.decimals = some 2) ∧
      (∀ x ∈ deposits, x.key.1 = ⟨0, 0, 5005⟩ → x.decimals = none ∨ x.decimals = some 2) ∧
      (∃ e ∈ h.data.tokens, e.tokenId = ⟨0, 0, 5005⟩) ∧
      h.data.toOperation.amountLists ⟨0, 0, 5005⟩ =
        [⟨⟨0, 0, 5005⟩, [⟨⟨0, 0, 1002⟩, 3, false⟩], [], none⟩] := by
  decide

end LedgerClient
