import LedgerClient.Proofs.Json.Fields
import LedgerClient.Proofs.Transfer.Lists
import LedgerClient.Transfer.Draft
import Mathlib.Tactic.MkIffOfInductiveProp

/-!
# `LedgerClient.Proofs.Transfer.Seeding`: entries given at once or one by one

A draft can be filled from three lists of entries or by one addition for
each entry. Both come to the same whatever the order in which additions
of different kinds alternate, because an addition reads and changes the
list of its own kind and nothing else: `HbarTransfer.apply_addition`,
`TokenTransfer.apply_addition` and `NftMove.apply_addition` say so for
one addition. What some additions come to is then a matter of each list
by itself (`Interleaves.applyAll_eq_ok_iff`, by induction on how the
lists are interleaved), and does not mention the order any more.

The lists of a draft are a special case. They are what a history of
additions comes to, so no key stands in them twice and no amount is
zero, and entries of which that is true are added as they stand
(`foldlM_of_distinct`).
-/

set_option autoImplicit false

namespace LedgerClient

/-! ### Entries as additions -/

/-- The addition that makes an hbar entry. -/
def HbarTransfer.addition (t : HbarTransfer) : Addition :=
  .hbar (.account t.accountId) t.amount t.isApproved

/-- The addition that makes a token entry. -/
def TokenTransfer.addition (t : TokenTransfer) : Addition :=
  .token (.token t.tokenId) (.account t.accountId) t.amount t.expectedDecimals t.isApproved

/-- The addition that makes an NFT entry. -/
def NftMove.addition (t : NftMove) : Addition :=
  .nft (.nft t.nftId) (.account t.sender) (.account t.receiver) t.isApproved

/-- The additions make the entries of three lists, those of each list in its order, and alternate
between the lists in any way. -/
inductive Interleaves :
    List HbarTransfer → List TokenTransfer → List NftMove → List Addition → Prop
  | nil : Interleaves [] [] [] []
  | hbar {hbar : List HbarTransfer} {tokens : List TokenTransfer} {nfts : List NftMove}
      {additions : List Addition} (t : HbarTransfer)
      (rest : Interleaves hbar tokens nfts additions) :
      Interleaves (t :: hbar) tokens nfts (t.addition :: additions)
  | token {hbar : List HbarTransfer} {tokens : List TokenTransfer} {nfts : List NftMove}
      {additions : List Addition} (t : TokenTransfer)
      (rest : Interleaves hbar tokens nfts additions) :
      Interleaves hbar (t :: tokens) nfts (t.addition :: additions)
  | nft {hbar : List HbarTransfer} {tokens : List TokenTransfer} {nfts : List NftMove}
      {additions : List Addition} (t : NftMove)
      (rest : Interleaves hbar tokens nfts additions) :
      Interleaves hbar tokens (t :: nfts) (t.addition :: additions)

/-- Makes some additions, one after the other, of which none may be refused. -/
def Addition.applyAll (data : TransferData) (additions : List Addition) :
    Except Error TransferData :=
  additions.foldlM apply data

/-- Additions are accepted if the first one is and the others are after it. -/
theorem Addition.applyAll_cons {data data' : TransferData} {a : Addition}
    {additions : List Addition} : applyAll data (a :: additions) = .ok data' ↔
      ∃ added, a.apply data = .ok added ∧ applyAll added additions = .ok data' := by
  rw [applyAll, List.foldlM_cons, bind_eq_ok]
  rfl

/-! ### Each list by itself -/

/-- The hbar entries after another one is added. -/
def HbarTransfer.addTo (entries : List HbarTransfer) (t : HbarTransfer) :
    Except Error (List HbarTransfer) :=
  (t.addition.apply { hbar := entries }).map TransferData.hbar

/-- The token entries after another one is added. -/
def TokenTransfer.addTo (entries : List TokenTransfer) (t : TokenTransfer) :
    Except Error (List TokenTransfer) :=
  (t.addition.apply { tokens := entries }).map TransferData.tokens

section
variable (data : TransferData)

/-- Adding an hbar entry is a matter of the hbar entries. -/
theorem HbarTransfer.apply_addition (t : HbarTransfer) :
    t.addition.apply data = (t.addTo data.hbar).map fun hbar => { data with hbar := hbar } := by
  simp only [addTo, addition, Addition.apply, TransferData.addHbar, EntityId.toAccount,
    TransferData.checkNonzero, bind, Except.bind]
  by_cases hamount : t.amount = 0
  · simp only [hamount, if_true]
    rfl
  · simp only [hamount, if_false]
    cases TransferData.addTo _ _ _ data.hbar <;> rfl

/-- Adding a token entry is a matter of the token entries. -/
theorem TokenTransfer.apply_addition (t : TokenTransfer) :
    t.addition.apply data =
      (t.addTo data.tokens).map fun tokens => { data with tokens := tokens } := by
  simp only [addTo, addition, Addition.apply, TransferData.addToken, EntityId.toToken,
    EntityId.toAccount, TransferData.checkNonzero, bind, Except.bind]
  by_cases hamount : t.amount = 0
  · simp only [hamount, if_true]
    rfl
  · simp only [hamount, if_false]
    cases TransferData.addTo _ _ _ data.tokens <;> rfl

/-- An NFT entry is added at the end. -/
theorem NftMove.apply_addition (t : NftMove) :
    t.addition.apply data = .ok { data with nfts := data.nfts ++ [t] } := rfl

end

/-- What the entries of three lists come to that are added to those of a transfer: each list by
itself, in its order. -/
@[mk_iff]
structure Accumulates (hbar : List HbarTransfer) (tokens : List TokenTransfer) (nfts : List NftMove)
    (data data' : TransferData) : Prop where
  hbar : hbar.foldlM HbarTransfer.addTo data.hbar = .ok data'.hbar
  tokens : tokens.foldlM TokenTransfer.addTo data.tokens = .ok data'.tokens
  nfts : data'.nfts = data.nfts ++ nfts

section
variable {hbar : List HbarTransfer} {tokens : List TokenTransfer} {nfts : List NftMove}
  {data data' : TransferData} {additions : List Addition}

/-- No transfers add nothing. -/
theorem accumulates_nil_iff : Accumulates [] [] [] data data' ↔ data = data' := by
  obtain ⟨hbar, tokens, nfts⟩ := data
  obtain ⟨hbar', tokens', nfts'⟩ := data'
  simp only [accumulates_iff, List.foldlM_nil, List.append_nil, pure, Except.pure, Except.ok.injEq,
    TransferData.mk.injEq, eq_comm]

/-- An amount is added to those of its kind, and the rest to what that leaves. -/
theorem accumulates_hbar_iff (t : HbarTransfer) : Accumulates (t :: hbar) tokens nfts data data' ↔
    ∃ entries, t.addTo data.hbar = .ok entries ∧
      Accumulates hbar tokens nfts { data with hbar := entries } data' := by
  simp only [accumulates_iff, List.foldlM_cons, bind_eq_ok, ← and_assoc, exists_and_right]

/-- So is an amount of a token. -/
theorem accumulates_token_iff (t : TokenTransfer) :
    Accumulates hbar (t :: tokens) nfts data data' ↔
      ∃ entries, t.addTo data.tokens = .ok entries ∧
        Accumulates hbar tokens nfts { data with tokens := entries } data' := by
  simp only [accumulates_iff, List.foldlM_cons, bind_eq_ok]
  constructor
  · rintro ⟨hhbar, ⟨entries, hentry, hrest⟩, hnfts⟩
    exact ⟨entries, hentry, hhbar, hrest, hnfts⟩
  · rintro ⟨entries, hentry, hhbar, hrest, hnfts⟩
    exact ⟨hhbar, ⟨entries, hentry, hrest⟩, hnfts⟩

/-- A move of a unique token comes after those before it. -/
theorem accumulates_nft_iff (t : NftMove) : Accumulates hbar tokens (t :: nfts) data data' ↔
    Accumulates hbar tokens nfts { data with nfts := data.nfts ++ [t] } data' := by
  simp only [accumulates_iff, List.append_cons data.nfts t nfts]

/-- What some additions come to does not depend on how they alternate between the lists. -/
theorem Interleaves.applyAll_eq_ok_iff (h : Interleaves hbar tokens nfts additions) :
    Addition.applyAll data additions = .ok data' ↔ Accumulates hbar tokens nfts data data' := by
  -- The induction is on the alternation: each step takes the first entry off one of the lists.
  induction h generalizing data with
  | nil =>
    rw [accumulates_nil_iff]
    exact Except.ok.injEq data data' ▸ Iff.rfl
  | hbar t rest ih =>
    simp only [accumulates_hbar_iff, Addition.applyAll_cons, t.apply_addition, map_eq_ok,
      exists_exists_and_eq_and, ih]
  | token t rest ih =>
    simp only [accumulates_token_iff, Addition.applyAll_cons, t.apply_addition, map_eq_ok,
      exists_exists_and_eq_and, ih]
  | nft t rest ih =>
    rw [accumulates_nft_iff, ← ih, Addition.applyAll, List.foldlM_cons, t.apply_addition]
    rfl

end

/-! ### All at once -/

section
variable (hbar : List HbarTransfer) (tokens : List TokenTransfer) (nfts : List NftMove)

/-- The additions that make the entries of three lists, one list after the other. -/
def oneByOne : List Addition :=
  hbar.map HbarTransfer.addition ++
    (tokens.map TokenTransfer.addition ++ nfts.map NftMove.addition)

/-- One kind after the other is one of the orders in which additions may come. -/
theorem interleaves_oneByOne : Interleaves hbar tokens nfts (oneByOne hbar tokens nfts) := by
  -- The lists are used up one after the other, so each induction ends where the next one begins.
  induction hbar with
  | cons t hbar ih => exact .hbar t ih
  | nil =>
    induction tokens with
    | cons t tokens ih => exact .token t ih
    | nil =>
      induction nfts with
      | cons t nfts ih => exact .nft t ih
      | nil => exact .nil

/-- Entries that are given at once are added one list after the other. -/
theorem ofTransfers_eq_applyAll : TransferData.ofTransfers hbar tokens nfts =
    Addition.applyAll {} (oneByOne hbar tokens nfts) := by
  rw [Addition.applyAll, oneByOne, List.foldlM_append, List.foldlM_map]
  simp only [List.foldlM_append, List.foldlM_map]
  rfl

/-- What entries come to that are given at once. -/
theorem ofTransfers_eq_ok_iff {data : TransferData} :
    TransferData.ofTransfers hbar tokens nfts = .ok data ↔
      Accumulates hbar tokens nfts {} data := by
  rw [ofTransfers_eq_applyAll, (interleaves_oneByOne hbar tokens nfts).applyAll_eq_ok_iff]

end

/-! ### Drafts -/

namespace Draft

/-- Makes some additions to a draft, one after the other, of which none may be refused. -/
def addAll (d : Draft) (additions : List Addition) : Except Error Draft :=
  additions.foldlM (fun d a => d.edit a.apply) d

/-- Additions to a draft are additions to its lists. -/
theorem addAll_eq (d : Draft) (additions : List Addition) : d.addAll additions =
    (Addition.applyAll d.data additions).map fun data => { d with data := data } := by
  induction additions generalizing d with
  | nil => rfl
  | cons a additions ih =>
    rw [addAll, Addition.applyAll, List.foldlM_cons, List.foldlM_cons, edit]
    cases a.apply d.data with
    | error e => rfl
    | ok data => exact ih { d with data := data }

/-- Additions to a new draft come to what the entries that they make come to at once. -/
theorem addAll_eq_ok_iff {hbar : List HbarTransfer} {tokens : List TokenTransfer}
    {nfts : List NftMove} {additions : List Addition}
    (h : Interleaves hbar tokens nfts additions) {d : Draft} : addAll {} additions = .ok d ↔
      ∃ data, TransferData.ofTransfers hbar tokens nfts = .ok data ∧ { data := data } = d := by
  rw [addAll_eq, map_eq_ok]
  simp only [ofTransfers_eq_ok_iff, h.applyAll_eq_ok_iff]

/-- The drafts that there are: a new one is empty or filled with entries that are given at once, and
every call that succeeds gives another. -/
inductive Built : Draft → Prop
  | new : Built {}
  | filled {hbar : List HbarTransfer} {tokens : List TokenTransfer} {nfts : List NftMove}
      {data : TransferData} (h : TransferData.ofTransfers hbar tokens nfts = .ok data) :
      Built { data := data }
  | added {d d' : Draft} (a : Addition) (built : Built d) (h : d.edit a.apply = .ok d') : Built d'
  | memo {d d' : Draft} {memo : String} (built : Built d) (h : d.setMemo memo = .ok d') : Built d'
  | fee {d : Draft} (tinybars : UInt64) (built : Built d) : Built (d.setFee tinybars)
  | validDuration {d d' : Draft} {duration : Duration} (built : Built d)
      (h : d.setValidDuration duration = .ok d') : Built d'
  | nodeIds {d d' : Draft} {ids : List AccountId} (built : Built d)
      (h : d.setNodeIds ids = .ok d') : Built d'
  | transactionId {d : Draft} (id : TransactionId) (built : Built d) : Built (d.setTransactionId id)

end Draft

/-- Additions of which none is refused are all in the history. -/
theorem History.data_of_applyAll {h : History} {additions : List Addition} {data : TransferData}
    (hall : Addition.applyAll h.data additions = .ok data) :
    (additions.foldl step h).data = data := by
  -- A step that is not refused is accepted, so the history takes all of them in turn.
  induction additions generalizing h with
  | nil =>
    cases hall
    rfl
  | cons a additions ih =>
    obtain ⟨added, hadded, hrest⟩ := Addition.applyAll_cons.1 hall
    have hstep : h.step a = ⟨added, h.accepted ++ [a]⟩ := by rw [step, hadded]
    rw [List.foldl_cons, hstep]
    exact ih hrest

/-- The lists of a draft are what a history of additions comes to. -/
theorem Draft.Built.exists_history {d : Draft} (h : Built d) :
    ∃ additions, d.data = (History.of additions).data := by
  induction h with
  | new => exact ⟨[], rfl⟩
  | filled h =>
    rw [ofTransfers_eq_applyAll] at h
    exact ⟨_, (History.data_of_applyAll (h := {}) h).symm⟩
  | added a built h ih =>
    obtain ⟨additions, hdata⟩ := ih
    obtain ⟨data, hadded, rfl⟩ := map_eq_ok.1 h
    rw [hdata] at hadded
    have hstep : (History.of additions).step a =
        ⟨data, (History.of additions).accepted ++ [a]⟩ := by
      rw [History.step, show a.apply (History.of additions).data = .ok data from hadded]
    exact ⟨additions ++ [a], by rw [History.of_concat, hstep]⟩
  -- What is set besides leaves the lists as they are.
  | memo built h ih =>
    unfold setMemo at h
    simp only at h
    split at h <;> cases h
    exact ih
  | fee _ built ih => exact ih
  | validDuration built h ih =>
    unfold setValidDuration at h
    split at h <;> cases h
    exact ih
  | nodeIds built h ih =>
    unfold setNodeIds at h
    split at h <;> cases h
    exact ih
  | transactionId _ built ih => exact ih

/-! ### Entries with keys of their own -/

/-- Entries that are added at the end as long as their keys are new are there as they stand, if no
key comes twice. -/
theorem foldlM_of_distinct {α κ : Type} {add : List α → α → Except Error (List α)} {key : α → κ}
    {before entries : List α}
    (hnew : ∀ t ∈ entries, ∀ before, (∀ e ∈ before, key e ≠ key t) →
      add before t = .ok (before ++ [t]))
    (hdistinct : ((before ++ entries).map key).Nodup) :
    entries.foldlM add before = .ok (before ++ entries) := by
  induction entries generalizing before with
  | nil =>
    rw [List.append_nil]
    rfl
  | cons t entries ih =>
    obtain ⟨ht, hentries⟩ := List.forall_mem_cons.1 hnew
    have hapart : ∀ e ∈ before, key e ≠ key t := by
      intro e he hkey
      rw [List.map_append, List.nodup_append] at hdistinct
      exact hdistinct.2.2 _ (List.mem_map_of_mem he) _ List.mem_cons_self hkey
    -- The entry goes to the end of those before it, and the rest follows from there.
    rw [List.append_cons] at hdistinct ⊢
    rw [List.foldlM_cons, ht before hapart]
    exact ih hentries hdistinct

/-- An hbar entry with an amount, for an account that has none, is added as it stands. -/
theorem HbarTransfer.addTo_of_new {t : HbarTransfer} (hamount : t.amount ≠ 0)
    (entries : List HbarTransfer) (hnew : ∀ e ∈ entries, e.deposit.key ≠ t.deposit.key) :
    addTo entries t = .ok (entries ++ [t]) := by
  have hothers : ∀ e ∈ entries, decide (e.accountId = t.accountId) = false :=
    fun e he => decide_eq_false (hnew e he)
  simp only [addTo, addition, Addition.apply, TransferData.addHbar, EntityId.toAccount,
    TransferData.checkNonzero, hamount, if_false, bind, Except.bind,
    TransferData.addTo_of_forall hothers]
  rfl

/-- A token entry with an amount, for an account that has none of the token, is added as it
stands. -/
theorem TokenTransfer.addTo_of_new {t : TokenTransfer} (hamount : t.amount ≠ 0)
    (entries : List TokenTransfer) (hnew : ∀ e ∈ entries, e.deposit.key ≠ t.deposit.key) :
    addTo entries t = .ok (entries ++ [t]) := by
  have hothers : ∀ e ∈ entries,
      decide (e.tokenId = t.tokenId ∧ e.accountId = t.accountId) = false :=
    fun e he => decide_eq_false fun hsame => hnew e he (Prod.ext hsame.1 hsame.2)
  simp only [addTo, addition, Addition.apply, TransferData.addToken, EntityId.toToken,
    EntityId.toAccount, TransferData.checkNonzero, hamount, if_false, bind, Except.bind,
    TransferData.addTo_of_forall hothers]
  rfl

/-- The lists of a history come to themselves. -/
theorem History.Exact.ofTransfers_self {h : History} (hexact : h.Exact) :
    TransferData.ofTransfers h.data.hbar h.data.tokens h.data.nfts = .ok h.data := by
  -- No key comes twice in the lists, so every entry is new when its turn comes.
  have hhbar : (([] ++ h.data.hbar).map fun t : HbarTransfer => t.deposit.key).Nodup := by
    have hkeys := hexact.hbar.distinct
    rwa [List.map_map] at hkeys
  have htokens : (([] ++ h.data.tokens).map fun t : TokenTransfer => t.deposit.key).Nodup := by
    have hkeys := hexact.tokens.distinct
    rwa [List.map_map] at hkeys
  rw [ofTransfers_eq_ok_iff]
  refine ⟨foldlM_of_distinct (fun t ht => ?_) hhbar, foldlM_of_distinct (fun t ht => ?_) htokens,
    rfl⟩
  · have hamount := hexact.hbar.amount_ne_zero (e := t.deposit) (List.mem_map_of_mem ht)
    exact HbarTransfer.addTo_of_new hamount
  · have hamount := hexact.tokens.amount_ne_zero (e := t.deposit) (List.mem_map_of_mem ht)
    exact TokenTransfer.addTo_of_new hamount

/-- Filling a draft agrees with adding to it. Three lists of entries that are given at once come to
some data exactly if every sequence of additions comes to a draft with these data that makes the
entries of each list in their order, however it alternates between the lists. They are accepted
exactly if all of these sequences are. And whatever calls a draft has come from, its own lists,
given at once, are accepted and come to the same data. -/
theorem filling_agrees_with_adding (hbar : List HbarTransfer) (tokens : List TokenTransfer)
    (nfts : List NftMove) :
    (∀ data, TransferData.ofTransfers hbar tokens nfts = .ok data ↔
      ∀ additions, Interleaves hbar tokens nfts additions →
        Draft.addAll {} additions = .ok { data := data }) ∧
      ((∃ data, TransferData.ofTransfers hbar tokens nfts = .ok data) ↔
        ∀ additions, Interleaves hbar tokens nfts additions →
          ∃ d, Draft.addAll {} additions = .ok d) ∧
      ∀ d : Draft, d.Built →
        TransferData.ofTransfers d.data.hbar d.data.tokens d.data.nfts = .ok d.data := by
  refine ⟨fun data => ⟨fun hdata additions h => ?_, fun hall => ?_⟩,
    ⟨?_, fun hall => ?_⟩, fun d hd => ?_⟩
  · exact (Draft.addAll_eq_ok_iff h).2 ⟨data, hdata, rfl⟩
  · -- One of the sequences is enough here: the one that uses up the lists one by one.
    have hone := hall _ (interleaves_oneByOne hbar tokens nfts)
    obtain ⟨data', hdata', hsame⟩ := (Draft.addAll_eq_ok_iff (interleaves_oneByOne ..)).1 hone
    rwa [show data' = data from congrArg Draft.data hsame] at hdata'
  · rintro ⟨data, hdata⟩ additions h
    exact ⟨_, (Draft.addAll_eq_ok_iff h).2 ⟨data, hdata, rfl⟩⟩
  · obtain ⟨d, hone⟩ := hall _ (interleaves_oneByOne hbar tokens nfts)
    obtain ⟨data, hdata, -⟩ := (Draft.addAll_eq_ok_iff (interleaves_oneByOne ..)).1 hone
    exact ⟨data, hdata⟩
  · obtain ⟨additions, hdata⟩ := hd.exists_history
    rw [hdata]
    exact (History.of_exact additions).ofTransfers_self

/-- Two transfers of hbar cancel out, one of a token is raised, and the NFT stays, although the
calls come in another order. -/
example : Draft.addAll {}
    [NftMove.addition ⟨⟨⟨0, 0, 9⟩, 1⟩, ⟨0, 0, 2⟩, ⟨0, 0, 3⟩, true⟩,
      TokenTransfer.addition ⟨⟨0, 0, 8⟩, ⟨0, 0, 2⟩, 1, some 2, false⟩,
      HbarTransfer.addition ⟨⟨0, 0, 2⟩, 5, false⟩,
      TokenTransfer.addition ⟨⟨0, 0, 8⟩, ⟨0, 0, 2⟩, 3, none, true⟩,
      HbarTransfer.addition ⟨⟨0, 0, 2⟩, -5, false⟩] =
    .ok { data := ⟨[], [⟨⟨0, 0, 8⟩, ⟨0, 0, 2⟩, 4, some 2, true⟩],
      [⟨⟨⟨0, 0, 9⟩, 1⟩, ⟨0, 0, 2⟩, ⟨0, 0, 3⟩, true⟩]⟩ } := by
  rfl

end LedgerClient
