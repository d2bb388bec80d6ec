import LedgerClient.Proofs.Transfer.Deposits

/-!
# `LedgerClient.Proofs.Transfer.Accumulation`: what a history of additions leaves

A transfer is made by one addition after another, of which some are
refused. `History` keeps, beside the lists, the additions that were
accepted, and `History.of_exact` says that the lists are a function of
these alone: the hbar entries are the balances of the hbar additions,
the token entries those of the token additions, and the NFT entries the
NFT additions themselves.

Each kind of addition is a deposit to one list and leaves the other
two; `TransferData.addHbar_deposit` and `addToken_deposit` say so,
through the view of an entry as a deposit. An addition is refused for what it is given, or
because the exact sum for its key has no room (`Addition.Refused`), so
whether it is depends on the accepted additions too, and not on how the
lists stand.
-/

set_option autoImplicit false

namespace LedgerClient

/-! ### Entries as deposits -/

/-- An hbar entry as what stands under its account. -/
def HbarTransfer.deposit (t : HbarTransfer) : Deposit AccountId :=
  ⟨t.accountId, t.amount, t.isApproved, none⟩

/-- A token entry as what stands under its token and account. -/
def TokenTransfer.deposit (t : TokenTransfer) : Deposit (TokenId × AccountId) :=
  ⟨(t.tokenId, t.accountId), t.amount, t.isApproved, t.expectedDecimals⟩

/-! ### Additions -/

/-- An addition to a transfer, as the caller asks for it. -/
inductive Addition where
  | hbar (account : EntityId) (amount : Int64) (isApproved : Bool)
  | token (token account : EntityId) (amount : Int64) (decimals : Option UInt32)
      (isApproved : Bool)
  | nft (nft sender receiver : EntityId) (isApproved : Bool)
deriving DecidableEq, Repr

namespace Addition

/-- Makes the addition. -/
def apply (data : TransferData) : Addition → Except Error TransferData
  | .hbar account amount isApproved => data.addHbar account amount isApproved
  | .token t account amount decimals isApproved =>
    data.addToken t account amount decimals isApproved
  | .nft n sender receiver isApproved => data.addNft n sender receiver isApproved

/-- The addition as a deposit of hbar, if it is one. -/
def hbarDeposit? : Addition → Option (Deposit AccountId)
  | .hbar (.account id) amount isApproved => some ⟨id, amount, isApproved, none⟩
  | _ => none

/-- The addition as a deposit of a token, if it is one. -/
def tokenDeposit? : Addition → Option (Deposit (TokenId × AccountId))
  | .token (.token tokenId) (.account id) amount decimals isApproved =>
    some ⟨(tokenId, id), amount, isApproved, decimals⟩
  | _ => none

/-- The addition as a move of an NFT, if it is one. -/
def nftMove? : Addition → Option NftMove
  | .nft (.nft id) (.account sender) (.account receiver) isApproved =>
    some ⟨id, sender, receiver, isApproved⟩
  | _ => none

/-- The addition asks for one kind of identifier and is given another. -/
def Misnamed : Addition → Prop
  | .hbar account _ _ => account.kind ≠ .account
  | .token t account _ _ _ => t.kind ≠ .token ∨ account.kind ≠ .account
  | .nft n sender receiver _ =>
    n.kind ≠ .nft ∨ sender.kind ≠ .account ∨ receiver.kind ≠ .account

/-- The addition adds nothing. -/
def Idle : Addition → Prop
  | .hbar _ amount _ => amount = 0
  | .token _ _ amount _ _ => amount = 0
  | .nft .. => False

/-- After the accepted additions, the sum for the key of the addition has no room. -/
def Overflows (accepted : List Addition) (a : Addition) : Prop :=
  (∃ d, a.hbarDeposit? = some d ∧
    ¬ InRange (Deposit.total d.key (accepted.filterMap hbarDeposit?) + d.amount.toInt)) ∨
  ∃ d, a.tokenDeposit? = some d ∧
    ¬ InRange (Deposit.total d.key (accepted.filterMap tokenDeposit?) + d.amount.toInt)

/-- Why an addition is refused after the accepted ones. -/
def Refused (accepted : List Addition) (a : Addition) : Prop :=
  a.Misnamed ∨ a.Idle ∨ a.Overflows accepted

/-- An addition that is given another kind of identifier than it asks for fails. -/
theorem apply_of_misnamed {a : Addition} (h : a.Misnamed) (data : TransferData) :
    ∃ e, a.apply data = .error e := by
  -- The first identifier of the wrong kind is the one that is reported, so the cases follow the
  -- order of the checks.
  cases a with
  | hbar account =>
    cases account with
    | account => exact absurd rfl h
    | token => exact ⟨_, rfl⟩
    | nft => exact ⟨_, rfl⟩
  | token t account =>
    cases t with
    | account => exact ⟨_, rfl⟩
    | nft => exact ⟨_, rfl⟩
    | token =>
      cases account with
      | account => simp [Misnamed, EntityId.kind] at h
      | token => exact ⟨_, rfl⟩
      | nft => exact ⟨_, rfl⟩
  | nft n sender receiver =>
    cases n with
    | account => exact ⟨_, rfl⟩
    | token => exact ⟨_, rfl⟩
    | nft =>
      cases sender with
      | token => exact ⟨_, rfl⟩
      | nft => exact ⟨_, rfl⟩
      | account =>
        cases receiver with
        | account => simp [Misnamed, EntityId.kind] at h
        | token => exact ⟨_, rfl⟩
        | nft => exact ⟨_, rfl⟩

/-- Every other addition is about an account, a token and an account, or an NFT and two
accounts. -/
theorem misnamed_or (a : Addition) : a.Misnamed ∨
    (∃ id amount isApproved, a = .hbar (.account id) amount isApproved) ∨
    (∃ tokenId id amount decimals isApproved,
      a = .token (.token tokenId) (.account id) amount decimals isApproved) ∨
    ∃ id sender receiver isApproved,
      a = .nft (.nft id) (.account sender) (.account receiver) isApproved := by
  cases a with
  | hbar account amount isApproved => cases account <;> simp [Misnamed, EntityId.kind]
  | token t account => cases t <;> cases account <;> simp [Misnamed, EntityId.kind]
  | nft n sender receiver =>
    cases n <;> cases sender <;> cases receiver <;> simp [Misnamed, EntityId.kind]

end Addition

/-- The lists of a transfer, and the additions that were accepted into them, in order. -/
structure History where
  data : TransferData := {}
  accepted : List Addition := []

namespace History

/-- The history after another addition, which changes nothing if it is refused. -/
def step (h : History) (a : Addition) : History :=
  match a.apply h.data with
  | .ok data => ⟨data, h.accepted ++ [a]⟩
  | .error _ => h

/-- The history of some additions, from an empty transfer. -/
def of (additions : List Addition) : History :=
  additions.foldl step {}

/-- The lists are what the accepted additions come to. -/
structure Exact (h : History) : Prop where
  hbar : Deposit.Balances (h.accepted.filterMap Addition.hbarDeposit?)
    (h.data.hbar.map HbarTransfer.deposit)
  tokens : Deposit.Balances (h.accepted.filterMap Addition.tokenDeposit?)
    (h.data.tokens.map TokenTransfer.deposit)
  nfts : h.data.nfts = h.accepted.filterMap Addition.nftMove?

end History

/-! ### One addition -/

namespace TransferData

variable (data : TransferData)

/-- An addition to an account that adds something is a deposit to the hbar entries, and leaves the
other lists. -/
theorem addHbar_deposit (id : AccountId) {amount : Int64} (hamount : amount ≠ 0)
    (isApproved : Bool) :
    match Deposit.add ⟨id, amount, isApproved, none⟩ (data.hbar.map HbarTransfer.deposit) with
    | .ok entries => ∃ hbar, data.addHbar (.account id) amount isApproved =
        .ok { data with hbar := hbar } ∧ hbar.map HbarTransfer.deposit = entries
    | .error e => data.addHbar (.account id) amount isApproved = .error e := by
  -- How `addHbar` merges, to compare it with how deposits merge.
  let merge (entry : HbarTransfer) : Except Error (Option HbarTransfer) := do
    let sum ← accumulate entry.amount amount
    return if sum = 0 then none
      else some { entry with amount := sum, isApproved := isApproved }
  have hadd : Deposit.add ⟨id, amount, isApproved, none⟩ (data.hbar.map HbarTransfer.deposit) =
      (addTo (fun entry => entry.accountId = id) merge ⟨id, amount, isApproved⟩ data.hbar).map
        (List.map HbarTransfer.deposit) := by
    refine addTo_map HbarTransfer.deposit ⟨id, amount, isApproved⟩ (fun _ => rfl)
      (fun entry => ?_) data.hbar
    simp only [Deposit.mergeInto, merge, HbarTransfer.deposit]
    cases accumulate entry.amount amount with
    | error => rfl
    | ok sum =>
      by_cases hsum : sum = 0 <;>
        simp [hsum, HbarTransfer.deposit, bind, Except.bind, Except.map, pure, Except.pure]
  rw [hadd]
  simp only [addHbar, EntityId.toAccount, checkNonzero, hamount, if_false, bind, Except.bind, merge]
  cases addTo _ _ _ data.hbar with
  | error e => rfl
  | ok hbar => exact ⟨hbar, rfl, rfl⟩

/-- An addition of a token to an account that adds something is a deposit to the token entries, and
leaves the other lists. -/
theorem addToken_deposit (tokenId : TokenId) (id : AccountId) {amount : Int64}
    (hamount : amount ≠ 0) (decimals : Option UInt32) (isApproved : Bool) :
    match Deposit.add ⟨(tokenId, id), amount, isApproved, decimals⟩
        (data.tokens.map TokenTransfer.deposit) with
    | .ok entries => ∃ tokens,
        data.addToken (.token tokenId) (.account id) amount decimals isApproved =
          .ok { data with tokens := tokens } ∧ tokens.map TokenTransfer.deposit = entries
    | .error e =>
      data.addToken (.token tokenId) (.account id) amount decimals isApproved = .error e := by
  -- The entry keeps its decimals unless the addition brings some.
  let merge (entry : TokenTransfer) : Except Error (Option TokenTransfer) := do
    let sum ← accumulate entry.amount amount
    return if sum = 0 then none
      else some { entry with
        amount := sum
        isApproved := isApproved
        expectedDecimals := decimals.or entry.expectedDecimals }
  have hadd : Deposit.add ⟨(tokenId, id), amount, isApproved, decimals⟩
      (data.tokens.map TokenTransfer.deposit) =
      (addTo (fun entry => entry.tokenId = tokenId ∧ entry.accountId = id) merge
        ⟨tokenId, id, amount, decimals, isApproved⟩ data.tokens).map
        (List.map TokenTransfer.deposit) := by
    refine addTo_map TokenTransfer.deposit ⟨tokenId, id, amount, decimals, isApproved⟩
      (fun entry => by simp [TokenTransfer.deposit]) (fun entry => ?_) data.tokens
    simp only [Deposit.mergeInto, merge, TokenTransfer.deposit]
    cases accumulate entry.amount amount with
    | error => rfl
    | ok sum =>
      by_cases hsum : sum = 0 <;>
        simp [hsum, TokenTransfer.deposit, bind, Except.bind, Except.map, pure, Except.pure]
  rw [hadd]
  simp only [addToken, EntityId.toToken, EntityId.toAccount, checkNonzero, hamount, if_false, bind,
    Except.bind, merge]
  cases addTo _ _ _ data.tokens with
  | error e => rfl
  | ok tokens => exact ⟨tokens, rfl, rfl⟩

end TransferData

namespace History

variable {h : History}

/-- Nothing is in an empty transfer. -/
theorem exact_empty : Exact {} :=
  ⟨Deposit.balances_nil, Deposit.balances_nil, rfl⟩

/-- What an addition to an exact history does: it is refused for a reason and fails, or there is no
reason and the history stays exact. -/
def Answers (h : History) (a : Addition) : Prop :=
  (a.Refused h.accepted ∧ ∃ e, a.apply h.data = .error e) ∨
    (¬ a.Refused h.accepted ∧
      ∃ data, a.apply h.data = .ok data ∧ Exact ⟨data, h.accepted ++ [a]⟩)

/-- Another addition keeps a history exact if each list has come by what the addition is for it. -/
theorem Exact.concat {a : Addition} {data : TransferData}
    (hbar : Deposit.Balances (h.accepted.filterMap Addition.hbarDeposit? ++ a.hbarDeposit?.toList)
      (data.hbar.map HbarTransfer.deposit))
    (tokens : Deposit.Balances
      (h.accepted.filterMap Addition.tokenDeposit? ++ a.tokenDeposit?.toList)
      (data.tokens.map TokenTransfer.deposit))
    (nfts : data.nfts = h.accepted.filterMap Addition.nftMove? ++ a.nftMove?.toList) :
    Exact ⟨data, h.accepted ++ [a]⟩ := by
  have hconcat {β : Type} (f : Addition → Option β) :
      (h.accepted ++ [a]).filterMap f = h.accepted.filterMap f ++ (f a).toList := by
    cases hf : f a <;> simp [hf]
  exact ⟨by rwa [hconcat], by rwa [hconcat], by rwa [hconcat]⟩

/-- What an addition of hbar does. -/
theorem Exact.answers_hbar (hexact : h.Exact) (id : AccountId) (amount : Int64)
    (isApproved : Bool) : h.Answers (.hbar (.account id) amount isApproved) := by
  -- A zero amount is refused before any entry is looked at. Every other one is a deposit.
  by_cases hamount : amount = 0
  · refine .inl ⟨.inr (.inl hamount), .invalidArgument .zeroAmount, ?_⟩
    simp [Addition.apply, TransferData.addHbar, EntityId.toAccount, TransferData.checkNonzero,
      hamount, bind, Except.bind]
  have hdeposit := h.data.addHbar_deposit id hamount isApproved
  have hrefused : (Addition.hbar (.account id) amount isApproved).Refused h.accepted ↔
      ¬ InRange (Deposit.total id (h.accepted.filterMap Addition.hbarDeposit?) +
        amount.toInt) := by
    simp [Addition.Refused, Addition.Misnamed, Addition.Idle, Addition.Overflows,
      Addition.hbarDeposit?, Addition.tokenDeposit?, EntityId.kind, hamount]
  by_cases hrange : InRange (Deposit.total id (h.accepted.filterMap Addition.hbarDeposit?) +
      amount.toInt)
  · obtain ⟨entries, hok, hbalances⟩ :=
      hexact.hbar.add_of_inRange (d := ⟨id, amount, isApproved, none⟩) hamount hrange
    rw [hok] at hdeposit
    obtain ⟨hbar, happly, rfl⟩ := hdeposit
    refine .inr ⟨fun hr => hrefused.1 hr hrange, _, happly, Exact.concat hbalances ?_ ?_⟩
    · simpa [Addition.tokenDeposit?] using hexact.tokens
    · simpa [Addition.nftMove?] using hexact.nfts
  · obtain ⟨e, herror⟩ :=
      hexact.hbar.add_of_not_inRange (d := ⟨id, amount, isApproved, none⟩) hrange
    rw [herror] at hdeposit
    exact .inl ⟨hrefused.2 hrange, e, hdeposit⟩

/-- What an addition of a token does. -/
theorem Exact.answers_token (hexact : h.Exact) (tokenId : TokenId) (id : AccountId)
    (amount : Int64) (decimals : Option UInt32) (isApproved : Bool) :
    h.Answers (.token (.token tokenId) (.account id) amount decimals isApproved) := by
  by_cases hamount : amount = 0
  · refine .inl ⟨.inr (.inl hamount), .invalidArgument .zeroAmount, ?_⟩
    simp [Addition.apply, TransferData.addToken, EntityId.toToken, EntityId.toAccount,
      TransferData.checkNonzero, hamount, bind, Except.bind]
  have hdeposit := h.data.addToken_deposit tokenId id hamount decimals isApproved
  -- Of what can be wrong with a token addition, only the range is left.
  have hrefused : (Addition.token (.token tokenId) (.account id) amount decimals
      isApproved).Refused h.accepted ↔
      ¬ InRange (Deposit.total (tokenId, id) (h.accepted.filterMap Addition.tokenDeposit?) +
        amount.toInt) := by
    simp [Addition.Refused, Addition.Misnamed, Addition.Idle, Addition.Overflows,
      Addition.hbarDeposit?, Addition.tokenDeposit?, EntityId.kind, hamount]
  by_cases hrange : InRange (Deposit.total (tokenId, id)
      (h.accepted.filterMap Addition.tokenDeposit?) + amount.toInt)
  · obtain ⟨entries, hok, hbalances⟩ := hexact.tokens.add_of_inRange
      (d := ⟨(tokenId, id), amount, isApproved, decimals⟩) hamount hrange
    rw [hok] at hdeposit
    obtain ⟨tokens, happly, rfl⟩ := hdeposit
    refine .inr ⟨fun hr => hrefused.1 hr hrange, _, happly, Exact.concat ?_ hbalances ?_⟩
    · simpa [Addition.hbarDeposit?] using hexact.hbar
    · simpa [Addition.nftMove?] using hexact.nfts
  · obtain ⟨e, herror⟩ := hexact.tokens.add_of_not_inRange
      (d := ⟨(tokenId, id), amount, isApproved, decimals⟩) hrange
    rw [herror] at hdeposit
    exact .inl ⟨hrefused.2 hrange, e, hdeposit⟩

/-- An addition of an NFT is never refused. -/
theorem Exact.answers_nft (hexact : h.Exact) (id : NftId) (sender receiver : AccountId)
    (isApproved : Bool) :
    h.Answers (.nft (.nft id) (.account sender) (.account receiver) isApproved) := by
  refine .inr ⟨?_, _, rfl, Exact.concat ?_ ?_ ?_⟩
  · simp [Addition.Refused, Addition.Misnamed, Addition.Idle, Addition.Overflows,
      Addition.hbarDeposit?, Addition.tokenDeposit?, EntityId.kind]
  · simpa [Addition.hbarDeposit?] using hexact.hbar
  · simpa [Addition.tokenDeposit?] using hexact.tokens
  · simp [Addition.nftMove?, hexact.nfts]

/-- Whatever is added next, it is refused for a reason, or the history stays exact. -/
theorem Exact.answers (hexact : h.Exact) (a : Addition) : h.Answers a := by
  rcases a.misnamed_or with hmisnamed | ⟨id, amount, isApproved, rfl⟩ |
    ⟨tokenId, id, amount, decimals, isApproved, rfl⟩ | ⟨id, sender, receiver, isApproved, rfl⟩
  · exact .inl ⟨.inl hmisnamed, Addition.apply_of_misnamed hmisnamed h.data⟩
  · exact hexact.answers_hbar id amount isApproved
  · exact hexact.answers_token tokenId id amount decimals isApproved
  · exact hexact.answers_nft id sender receiver isApproved

/-- An addition fails exactly if there is a reason to refuse it. -/
theorem Exact.apply_eq_error_iff (hexact : h.Exact) (a : Addition) :
    (∃ e, a.apply h.data = .error e) ↔ a.Refused h.accepted := by
  rcases hexact.answers a with ⟨hrefused, herror⟩ | ⟨hrefused, data, hok, -⟩
  · exact iff_of_true herror hrefused
  · refine iff_of_false ?_ hrefused
    rintro ⟨e, herror⟩
    rw [hok] at herror
    cases herror

/-- A history stays exact. -/
theorem Exact.step (hexact : h.Exact) (a : Addition) : (h.step a).Exact := by
  unfold History.step
  rcases hexact.answers a with ⟨-, e, herror⟩ | ⟨-, data, hok, hnext⟩
  · rw [herror]
    exact hexact
  · rw [hok]
    exact hnext

/-- Every history is exact. -/
theorem of_exact (additions : List Addition) : (of additions).Exact := by
  suffices hfold : ∀ h : History, h.Exact → (additions.foldl step h).Exact from
    hfold {} exact_empty
  induction additions with
  | nil => exact fun _ hexact => hexact
  | cons a rest ih => exact fun h hexact => ih (h.step a) (hexact.step a)

/-- The last addition is made to what the others have left. -/
theorem of_concat (additions : List Addition) (a : Addition) :
    of (additions ++ [a]) = (of additions).step a := by
  rw [of, List.foldl_append]
  rfl

end History

/-- For every sequence of additions to an empty transfer, of which any may be refused: the lists are
what the accepted ones come to, and the next addition is refused exactly if it is given the wrong
kind of identifier, adds nothing, or brings the exact sum for its key out of range. It then changes
nothing, and otherwise is accepted. -/
theorem accumulates_exactly (additions : List Addition) :
    let h := History.of additions
    h.Exact ∧
      (∀ a : Addition, (∃ e, a.apply h.data = .error e) ↔ a.Refused h.accepted) ∧
      (∀ a : Addition, a.Refused h.accepted → History.of (additions ++ [a]) = h) ∧
      ∀ a : Addition, ¬ a.Refused h.accepted →
        (History.of (additions ++ [a])).accepted = h.accepted ++ [a] := by
  intro h
  have hexact : h.Exact := History.of_exact additions
  -- Both sides of the law are in `Exact`, and a refused step leaves the history as it stands.
  refine ⟨hexact, hexact.apply_eq_error_iff, fun a hrefused => ?_, fun a hrefused => ?_⟩
  · obtain ⟨e, herror⟩ := (hexact.apply_eq_error_iff a).2 hrefused
    rw [History.of_concat, History.step, herror]
  · rcases hexact.answers a with ⟨hrefused', -⟩ | ⟨-, data, hok, -⟩
    · exact absurd hrefused' hrefused
    · rw [History.of_concat, History.step, hok]

/-- An entry that comes to zero and is made again stands at the end, with the flag of the latest
addition, and without the decimals that were given before. -/
example : (History.of
    [.token (.token ⟨0, 0, 9⟩) (.account ⟨0, 0, 2⟩) 5 (some 2) true,
      .token (.token ⟨0, 0, 9⟩) (.account ⟨0, 0, 3⟩) 1 none false,
      .token (.token ⟨0, 0, 9⟩) (.account ⟨0, 0, 2⟩) (-5) none false,
      .token (.token ⟨0, 0, 9⟩) (.account ⟨0, 0, 2⟩) 4 none false]).data.tokens =
    [⟨⟨0, 0, 9⟩, ⟨0, 0, 3⟩, 1, none, false⟩, ⟨⟨0, 0, 9⟩, ⟨0, 0, 2⟩, 4, none, false⟩] := by
  decide

end LedgerClient
