import LedgerClient.Proofs.Json.Fields
import LedgerClient.Proofs.Text.Numerals
import LedgerClient.Proofs.Transfer.Accumulation
import LedgerClient.Rpc.TransferParams
import Mathlib.Data.List.Forall2

/-!
# `LedgerClient.Proofs.Rpc.TransferParams`: what the parameters of a transfer ask for

Between the parameters of a transfer and its draft there are two
steps: the parameters are read as typed values, and these are added to
an empty draft one by one. What comes out is said here without either:

* `Asks` says of the JSON value of an entry which addition it asks for,
  with the amount as the integer that is written, whether as a number or
  as a text;
* `Asked` says of the parameters which additions, which memo and which
  fee they ask for.

`TransferParams.draft_eq_ok` is the result: a draft that the parameters
lead to has the memo and the fee that they ask for, and the lists are
those of a history in which every addition that they ask for was
accepted.
-/

set_option autoImplicit false

namespace LedgerClient.Rpc

open Json (part? optionalPart? readRecord_get readRecord_get_option readRecord_getD)

/-! ### What is written -/

/-- The fields of the parameters, in order. -/
def paramFields : List String := ["transfers", "memo", "maxTransactionFee"]

/-- The fields of an entry, in order. -/
def entryFields : List String := ["hbar", "token", "nft", "approved"]

/-- The fields of an entry that moves hbar. -/
def hbarFields : List String := ["accountId", "amount"]

/-- The fields of an entry that moves a token. -/
def tokenFields : List String := ["accountId", "tokenId", "amount", "decimals"]

/-- The fields of an entry that moves an NFT. -/
def nftFields : List String := ["senderAccountId", "receiverAccountId", "tokenId", "serialNumber"]

/-- The integer that an amount is written as: a number, or a text of one. -/
def written? : Json → Option Int
  | .integer n => some n
  | .text s => Text.Decimal.signed? s.toList
  | _ => none

/-- The integer in a field. -/
def writtenIn? (names : List String) (name : String) (j : Json) : Option Int :=
  (part? names name j).bind written?

/-- The three parts of an entry, one for each kind of thing that it may move. -/
structure Moves (j : Json) (hbar token nft : Option Json) : Prop where
  hbar : optionalPart? entryFields "hbar" j = hbar
  token : optionalPart? entryFields "token" j = token
  nft : optionalPart? entryFields "nft" j = nft

/-- Whether an entry says that it uses an allowance. -/
def approvedIn (j : Json) : Bool :=
  match part? entryFields "approved" j with
  | some (.bool isApproved) => isApproved
  | _ => false

/-- The account in a field. -/
def AccountIn (names : List String) (name : String) (j : Json) (id : AccountId) : Prop :=
  ∃ text, part? names name j = some (.text text) ∧ AccountId.parse text = .ok id

/-- The token in a field. -/
def TokenIn (names : List String) (name : String) (j : Json) (id : TokenId) : Prop :=
  ∃ text, part? names name j = some (.text text) ∧ TokenId.parse text = .ok id

/-- The addition that an entry asks for. -/
inductive Asks (j : Json) : Addition → Prop
  | hbar {content : Json} {id : AccountId} {amount : Int64}
      (moves : Moves j (some content) none none)
      (account : AccountIn hbarFields "accountId" content id)
      (exact : writtenIn? hbarFields "amount" content = some amount.toInt) :
      Asks j (.hbar (.account id) amount (approvedIn j))
  | token {content : Json} {tokenId : TokenId} {id : AccountId} {amount : Int64}
      {decimals : Option UInt32}
      (moves : Moves j none (some content) none)
      (token : TokenIn tokenFields "tokenId" content tokenId)
      (account : AccountIn tokenFields "accountId" content id)
      (exact : writtenIn? tokenFields "amount" content = some amount.toInt)
      (expected : (optionalPart? tokenFields "decimals" content).bind written? =
        decimals.map fun n => (n.toNat : Int)) :
      Asks j (.token (.token tokenId) (.account id) amount decimals (approvedIn j))
  | nft {content : Json} {tokenId : TokenId} {sender receiver : AccountId} {serial : Int64}
      (moves : Moves j none none (some content))
      (token : TokenIn nftFields "tokenId" content tokenId)
      (sends : AccountIn nftFields "senderAccountId" content sender)
      (receives : AccountIn nftFields "receiverAccountId" content receiver)
      (exact : writtenIn? nftFields "serialNumber" content = some serial.toInt)
      (positive : 0 < serial.toInt) :
      Asks j (.nft (.nft ⟨tokenId, serial⟩) (.account sender) (.account receiver) (approvedIn j))

/-- A transfer as the parameters ask for it. -/
structure Asked where
  additions : List Addition
  memo : String
  fee : UInt64

/-- The memo is the text that is written, or empty. -/
def MemoIs (memo : String) : Option Json → Prop
  | some value => value = .text memo
  | none => memo = ""

/-- The fee ceiling is the integer that is written, or the usual one. -/
def FeeIs (fee : UInt64) : Option Json → Prop
  | some value => written? value = some (fee.toNat : Int)
  | none => fee = 100000000

/-- The parameters ask for a transfer: for its additions one by one, for the memo or for none, and
for the fee ceiling or for the usual one. -/
structure Asked.By (asked : Asked) (params : Json) : Prop where
  additions : ∃ entries, part? paramFields "transfers" params = some (.list entries) ∧
    List.Forall₂ Asks entries asked.additions
  memo : MemoIs asked.memo (optionalPart? paramFields "memo" params)
  fee : FeeIs asked.fee (optionalPart? paramFields "maxTransactionFee" params)

/-! ### Reading the parameters -/

section
variable {j : Json}

/-- Only a text is read as one. -/
theorem eq_text_of_ofJson {s : String} (h : ofJson j = .ok s) : j = .text s := by
  cases j with
  | text =>
    cases h
    rfl
  | _ => cases h

/-- A truth value is read from itself. -/
theorem eq_bool_of_ofJson {b : Bool} (h : ofJson j = .ok b) : j = .bool b := by
  cases j with
  | bool =>
    cases h
    rfl
  | _ => cases h

/-- An integer of 64 bits is read from the integer that it is. -/
theorem eq_integer_of_ofJson {n : Int64} (h : ofJson j = .ok n) : j = .integer n.toInt := by
  obtain ⟨i, hi, rfl⟩ := map_eq_ok.1 h
  -- Only an integer is read, and only within the range, where converting it loses nothing.
  cases j with
  | integer =>
    rw [Json.integerWithin] at hi
    split at hi
    next hrange =>
      cases hi
      rw [Int64.toInt_minValue, Int64.toInt_maxValue] at hrange
      rw [Int64.toInt_ofInt_of_le hrange.1 (by omega)]
    · cases hi
  | _ => cases hi

/-- A number of 32 bits is read from the integer that it is. -/
theorem written?_of_ofJson {n : UInt32} (h : ofJson j = .ok n) :
    written? j = some (n.toNat : Int) := by
  obtain ⟨i, hi, rfl⟩ := map_eq_ok.1 h
  cases j with
  | integer =>
    rw [Json.naturalBelow] at hi
    split at hi
    next hrange =>
      cases hi
      rw [UInt32.toNat_ofNat_of_lt' (by omega), Int.toNat_of_nonneg hrange.1]
      rfl
    · cases hi
  | _ => cases hi

end

/-- A text that is read as an integer of 64 bits is a text of that integer. -/
theorem signed?_of_int64? {cs : List Char} {n : Int64} (h : Text.Decimal.int64? cs = some n) :
    Text.Decimal.signed? cs = some n.toInt :=
  Text.Decimal.signed?_eq_some_iff.2 (Text.Decimal.int64?_eq_some_iff.1 h)

/-- An amount is read from a text, or from the integer that it is. -/
theorem Amount.of_ofJson {j : Json} {amount : Amount} (h : ofJson j = .ok amount) :
    (∃ s, j = .text s ∧ amount = .text s) ∨
      ∃ n : Int64, j = .integer n.toInt ∧ amount = .number n := by
  cases j with
  | text s =>
    cases h
    exact .inl ⟨s, rfl, rfl⟩
  | integer i =>
    simp only [ofJson] at h
    split at h
    next n hread =>
      cases h
      exact .inr ⟨n, eq_integer_of_ofJson hread, rfl⟩
    · cases h
  | _ => cases h

/-- The value of an amount is the integer that is written. -/
theorem Amount.written?_of_value {j : Json} {amount : Amount} (h : ofJson j = .ok amount)
    {name : String} {n : Int64} (hvalue : amount.value name = .ok n) :
    written? j = some n.toInt := by
  rcases Amount.of_ofJson h with ⟨s, rfl, rfl⟩ | ⟨m, rfl, rfl⟩
  · unfold Amount.value at hvalue
    simp only at hvalue
    split at hvalue
    · cases hvalue
      exact signed?_of_int64? ‹_›
    · cases hvalue
  · cases hvalue
    rfl

section
variable {j : Json}

/-- What is read for an entry that moves hbar. -/
theorem HbarParam.of_ofJson {p : HbarParam} (h : ofJson j = .ok p) :
    part? hbarFields "accountId" j = some (.text p.accountId) ∧
      ∃ amount, part? hbarFields "amount" j = some amount ∧ ofJson amount = .ok p.amount := by
  obtain ⟨fields, hfields, h⟩ := bind_eq_ok.1 h
  obtain ⟨accountId, haccountId, h⟩ := bind_eq_ok.1 h
  obtain ⟨amount, hamount, h⟩ := bind_eq_ok.1 h
  cases h
  obtain ⟨_, haccount, hread⟩ := readRecord_get (by decide) (by decide) hfields rfl haccountId
  cases eq_text_of_ofJson hread
  exact ⟨haccount, readRecord_get (by decide) (by decide) hfields rfl hamount⟩

/-- What is read for an entry that moves a token. -/
theorem TokenParam.of_ofJson {p : TokenParam} (h : ofJson j = .ok p) :
    part? tokenFields "accountId" j = some (.text p.accountId) ∧
      part? tokenFields "tokenId" j = some (.text p.tokenId) ∧
      (∃ amount, part? tokenFields "amount" j = some amount ∧ ofJson amount = .ok p.amount) ∧
      Option.Rel (fun value n => ofJson value = .ok n) (optionalPart? tokenFields "decimals" j)
        p.decimals := by
  obtain ⟨fields, hfields, h⟩ := bind_eq_ok.1 h
  obtain ⟨accountId, haccountId, h⟩ := bind_eq_ok.1 h
  obtain ⟨tokenId, htokenId, h⟩ := bind_eq_ok.1 h
  obtain ⟨amount, hamount, h⟩ := bind_eq_ok.1 h
  obtain ⟨decimals, hdecimals, h⟩ := bind_eq_ok.1 h
  cases h
  -- Each field that was read is the part of the object with its name, and it is there once.
  obtain ⟨_, haccount, hread⟩ := readRecord_get (by decide) (by decide) hfields rfl haccountId
  cases eq_text_of_ofJson hread
  obtain ⟨_, htoken, hread⟩ := readRecord_get (by decide) (by decide) hfields rfl htokenId
  cases eq_text_of_ofJson hread
  exact ⟨haccount, htoken, readRecord_get (by decide) (by decide) hfields rfl hamount,
    readRecord_get_option (by decide) (by decide) hfields hdecimals⟩

/-- What is read for an entry that moves an NFT. -/
theorem NftParam.of_ofJson {p : NftParam} (h : ofJson j = .ok p) :
    part? nftFields "senderAccountId" j = some (.text p.senderAccountId) ∧
      part? nftFields "receiverAccountId" j = some (.text p.receiverAccountId) ∧
      part? nftFields "tokenId" j = some (.text p.tokenId) ∧
      ∃ serial, part? nftFields "serialNumber" j = some serial ∧
        ofJson serial = .ok p.serialNumber := by
  obtain ⟨fields, hfields, h⟩ := bind_eq_ok.1 h
  obtain ⟨senderId, hsenderId, h⟩ := bind_eq_ok.1 h
  obtain ⟨receiverId, hreceiverId, h⟩ := bind_eq_ok.1 h
  obtain ⟨tokenId, htokenId, h⟩ := bind_eq_ok.1 h
  obtain ⟨serial, hserial, h⟩ := bind_eq_ok.1 h
  cases h
  obtain ⟨_, hsender, hread⟩ := readRecord_get (by decide) (by decide) hfields rfl hsenderId
  cases eq_text_of_ofJson hread
  obtain ⟨_, hreceiver, hread⟩ := readRecord_get (by decide) (by decide) hfields rfl hreceiverId
  cases eq_text_of_ofJson hread
  obtain ⟨_, htoken, hread⟩ := readRecord_get (by decide) (by decide) hfields rfl htokenId
  cases eq_text_of_ofJson hread
  exact ⟨hsender, hreceiver, htoken, readRecord_get (by decide) (by decide) hfields rfl hserial⟩

/-- What is read for an entry. -/
theorem TransferParam.of_ofJson {p : TransferParam} (h : ofJson j = .ok p) :
    Option.Rel (fun value hbar => ofJson value = .ok hbar) (optionalPart? entryFields "hbar" j)
        p.hbar ∧
      Option.Rel (fun value token => ofJson value = .ok token)
        (optionalPart? entryFields "token" j) p.token ∧
      Option.Rel (fun value nft => ofJson value = .ok nft) (optionalPart? entryFields "nft" j)
        p.nft ∧
      approvedIn j = p.approved := by
  obtain ⟨fields, hfields, h⟩ := bind_eq_ok.1 h
  obtain ⟨hbar, hhbar, h⟩ := bind_eq_ok.1 h
  obtain ⟨token, htoken, h⟩ := bind_eq_ok.1 h
  obtain ⟨nft, hnft, h⟩ := bind_eq_ok.1 h
  obtain ⟨approved, happroved, h⟩ := bind_eq_ok.1 h
  cases h
  refine ⟨readRecord_get_option (by decide) (by decide) hfields hhbar,
    readRecord_get_option (by decide) (by decide) hfields htoken,
    readRecord_get_option (by decide) (by decide) hfields hnft, ?_⟩
  -- The flag may be left out, and then it is false.
  have hread := readRecord_getD (by decide) (by decide) hfields happroved
  change (match part? entryFields "approved" j with
    | some value => ofJson value = .ok approved
    | none => approved = false) at hread
  unfold approvedIn
  cases hpart : part? entryFields "approved" j with
  | none =>
    rw [hpart] at hread
    exact hread.symm
  | some value =>
    rw [hpart] at hread
    cases eq_bool_of_ofJson hread
    rfl

/-- What is read for the parameters. -/
theorem TransferParams.of_ofJson {p : TransferParams} (h : ofJson j = .ok p) :
    (∃ entries, part? paramFields "transfers" j = some (.list entries) ∧
        List.Forall₂ (fun entry transfer => ofJson entry = .ok transfer) entries p.transfers) ∧
      Option.Rel (fun value memo => ofJson value = .ok memo) (optionalPart? paramFields "memo" j)
        p.memo ∧
      Option.Rel (fun value fee => ofJson value = .ok fee)
        (optionalPart? paramFields "maxTransactionFee" j) p.maxTransactionFee := by
  obtain ⟨fields, hfields, h⟩ := bind_eq_ok.1 h
  obtain ⟨transfers, htransfers, h⟩ := bind_eq_ok.1 h
  obtain ⟨memo, hmemo, h⟩ := bind_eq_ok.1 h
  obtain ⟨fee, hfee, h⟩ := bind_eq_ok.1 h
  cases h
  obtain ⟨_, hlist, hread⟩ := readRecord_get (by decide) (by decide) hfields rfl htransfers
  obtain ⟨entries, rfl, hentries⟩ := list_of_ofJson hread
  exact ⟨⟨entries, hlist, hentries⟩,
    readRecord_get_option (by decide) (by decide) hfields hmemo,
    readRecord_get_option (by decide) (by decide) hfields hfee⟩

end

/-! ### The draft -/

/-- An edit changes the lists and nothing else. -/
theorem edit_eq_ok {draft draft' : Draft} {change : TransferData → Except Error TransferData}
    (h : lift (draft.edit change) = .ok draft') :
    ∃ data, change draft.data = .ok data ∧ draft' = { draft with data := data } := by
  obtain ⟨data, hdata, hdraft⟩ := map_eq_ok.1 (mapError_eq_ok.1 h)
  exact ⟨data, hdata, hdraft.symm⟩

/-- A value that was read was written. -/
theorem part_of_rel {α : Type} {r : Json → α → Prop} {part : Option Json} {a : α}
    (h : Option.Rel r part (some a)) : ∃ content, part = some content ∧ r content a := by
  cases h with
  | some hread => exact ⟨_, rfl, hread⟩

/-- A value that was not read was not written. -/
theorem no_part_of_rel {α : Type} {r : Json → α → Prop} {part : Option Json}
    (h : Option.Rel r part (none : Option α)) : part = none := by
  cases h
  rfl

/-- An optional number of 32 bits is the integer that is written. -/
theorem written?_of_rel {part : Option Json} {n : Option UInt32}
    (h : Option.Rel (fun value n => ofJson value = .ok n) part n) :
    part.bind written? = n.map fun n => (n.toNat : Int) := by
  cases h with
  | none => rfl
  | some hread => exact written?_of_ofJson hread

/-- An entry that is added to a draft asks for an addition, which is made. -/
theorem TransferParam.addTo_eq_ok {j : Json} {p : TransferParam} (hread : ofJson j = .ok p)
    {draft draft' : Draft} (h : p.addTo draft = .ok draft') :
    ∃ a data, Asks j a ∧ a.apply draft.data = .ok data ∧ draft' = { draft with data := data } := by
  -- Which parts are there decides what is added, and the two that are not must be absent.
  obtain ⟨hbar, token, nft, approved⟩ := p
  obtain ⟨hhbar, htoken, hnft, happroved⟩ := TransferParam.of_ofJson hread
  simp only at hhbar htoken hnft happroved
  subst happroved
  unfold TransferParam.addTo at h
  simp only at h
  split at h
  next hbar =>
    obtain ⟨content, hcontent, hread⟩ := part_of_rel hhbar
    obtain ⟨haccount, value, hvalue, hwritten⟩ := HbarParam.of_ofJson hread
    obtain ⟨id, hid, h⟩ := bind_eq_ok.1 h
    obtain ⟨amount, hamount, h⟩ := bind_eq_ok.1 h
    obtain ⟨data, hdata, rfl⟩ := edit_eq_ok h
    refine ⟨_, data, .hbar ⟨hcontent, no_part_of_rel htoken, no_part_of_rel hnft⟩
      ⟨_, haccount, mapError_eq_ok.1 hid⟩ ?_, hdata, rfl⟩
    rw [writtenIn?, hvalue]
    exact Amount.written?_of_value hwritten hamount
  next token =>
    obtain ⟨content, hcontent, hread⟩ := part_of_rel htoken
    obtain ⟨haccount, htokenId, ⟨value, hvalue, hwritten⟩, hdecimals⟩ := TokenParam.of_ofJson hread
    obtain ⟨tokenId, htoken, h⟩ := bind_eq_ok.1 h
    obtain ⟨id, hid, h⟩ := bind_eq_ok.1 h
    obtain ⟨amount, hamount, h⟩ := bind_eq_ok.1 h
    obtain ⟨data, hdata, rfl⟩ := edit_eq_ok h
    refine ⟨_, data, .token ⟨no_part_of_rel hhbar, hcontent, no_part_of_rel hnft⟩
      ⟨_, htokenId, mapError_eq_ok.1 htoken⟩ ⟨_, haccount, mapError_eq_ok.1 hid⟩ ?_ ?_, hdata, rfl⟩
    · rw [writtenIn?, hvalue]
      exact Amount.written?_of_value hwritten hamount
    · exact written?_of_rel hdecimals
  next nft =>
    obtain ⟨content, hcontent, hread⟩ := part_of_rel hnft
    obtain ⟨hsender, hreceiver, htokenId, value, hvalue, hwritten⟩ := NftParam.of_ofJson hread
    obtain ⟨serial, hserial, h⟩ := bind_eq_ok.1 h
    -- A serial number is refused before the names are read if it is not positive.
    split at h
    · cases h
    next hpositive =>
    obtain ⟨tokenId, htokenParsed, h⟩ := bind_eq_ok.1 h
    obtain ⟨senderId, hsenderParsed, h⟩ := bind_eq_ok.1 h
    obtain ⟨receiverId, hreceiverParsed, h⟩ := bind_eq_ok.1 h
    obtain ⟨data, hdata, rfl⟩ := edit_eq_ok h
    refine ⟨_, data, .nft ⟨no_part_of_rel hhbar, no_part_of_rel htoken, hcontent⟩
      ⟨_, htokenId, mapError_eq_ok.1 htokenParsed⟩ ⟨_, hsender, mapError_eq_ok.1 hsenderParsed⟩
      ⟨_, hreceiver, mapError_eq_ok.1 hreceiverParsed⟩ ?_ ?_, hdata, rfl⟩
    · rw [writtenIn?, hvalue]
      exact Amount.written?_of_value hwritten hserial
    · rw [Int64.le_iff_toInt_le, Int64.toInt_zero, Int.not_le] at hpositive
      exact hpositive
  · cases h

/-- The entries that are added to a draft ask for additions, which are all accepted, after those
that were accepted before. -/
theorem addAll_eq_ok {entries : List Json} {ps : List TransferParam}
    (hread : List.Forall₂ (fun entry p => ofJson entry = .ok p) entries ps) (before : List Addition)
    {draft draft' : Draft} (haccepted : (History.of before).accepted = before)
    (hdata : draft.data = (History.of before).data)
    (h : ps.foldlM (fun draft p => p.addTo draft) draft = .ok draft') :
    ∃ additions, List.Forall₂ Asks entries additions ∧
      (History.of (before ++ additions)).accepted = before ++ additions ∧
      draft' = { draft with data := (History.of (before ++ additions)).data } := by
  induction hread generalizing before draft with
  | nil =>
    cases h
    refine ⟨[], .nil, ?_, ?_⟩
    · rw [List.append_nil, haccepted]
    · rw [List.append_nil, ← hdata]
  | @cons entry p entries ps hentry _ ih =>
    rw [List.foldlM_cons] at h
    obtain ⟨next, hnext, h⟩ := bind_eq_ok.1 h
    obtain ⟨a, data, hasks, happly, rfl⟩ := TransferParam.addTo_eq_ok hentry hnext
    -- The addition is the next step of the history, which accepts it.
    have hstep : History.of (before ++ [a]) = ⟨data, before ++ [a]⟩ := by
      rw [History.of_concat, History.step, ← hdata, happly, haccepted]
    obtain ⟨additions, hadditions, haccepted', rfl⟩ :=
      ih (before ++ [a]) (by rw [hstep]) (by rw [hstep]) h
    refine ⟨a :: additions, .cons hasks hadditions, ?_, ?_⟩
    · simpa using haccepted'
    · simp

section
variable {p : TransferParams} {part : Option Json} {draft draft' : Draft}

/-- The memo of a draft is the one that is written, or stays empty. -/
theorem setMemo_eq_ok (hread : Option.Rel (fun value memo => ofJson value = .ok memo) part p.memo)
    (hempty : draft.memo = "") (h : p.setMemo draft = .ok draft') :
    ∃ memo, MemoIs memo part ∧ memo.utf8ByteSize ≤ Draft.maxMemoBytes ∧
      draft' = { draft with memo := memo } := by
  unfold TransferParams.setMemo at h
  cases hmemo : p.memo with
  -- Without a memo the draft keeps the one that it has, which is empty.
  | none =>
    rw [hmemo] at hread h
    cases hread
    cases h
    refine ⟨"", rfl, by decide, ?_⟩
    rw [← hempty]
  | some memo =>
    rw [hmemo] at hread h
    obtain ⟨value, rfl, hvalue⟩ := part_of_rel hread
    cases eq_text_of_ofJson hvalue
    have hset := mapError_eq_ok.1 h
    unfold Draft.setMemo at hset
    simp only at hset
    split at hset
    next hshort =>
      cases hset
      exact ⟨memo, rfl, hshort, rfl⟩
    · cases hset

/-- The fee ceiling of a draft is the one that is written, or the usual one. -/
theorem setFee_eq_ok
    (hread : Option.Rel (fun value fee => ofJson value = .ok fee) part p.maxTransactionFee)
    (hempty : draft.maxFee = none) (h : p.setFee draft = .ok draft') :
    FeeIs draft'.fee part ∧ draft' = { draft with maxFee := draft'.maxFee } := by
  unfold TransferParams.setFee at h
  cases hfee : p.maxTransactionFee with
  | none =>
    rw [hfee] at hread h
    cases hread
    cases h
    refine ⟨?_, rfl⟩
    rw [Draft.fee, hempty]
    exact rfl
  | some amount =>
    rw [hfee] at hread h
    obtain ⟨value, rfl, hvalue⟩ := part_of_rel hread
    obtain ⟨n, hn, h⟩ := bind_eq_ok.1 h
    split at h
    · cases h
    next hnegative =>
    -- A negative fee is refused, and the rest of the range has room in sixty-four bits.
    cases h
    rw [Int64.lt_iff_toInt_lt, Int64.toInt_zero, Int.not_lt] at hnegative
    have hroom : n.toInt.toNat < UInt64.size := by
      have := n.toInt_lt
      rw [UInt64.size]
      omega
    refine ⟨?_, rfl⟩
    rw [FeeIs, Amount.written?_of_value hvalue hn, Draft.fee, Draft.setFee, Option.getD_some,
      UInt64.toNat_ofNat_of_lt' hroom, Int.toNat_of_nonneg hnegative]

end

/-- A draft of what the parameters ask for: all additions were accepted, and what the parameters do
not say has its default. -/
structure Asked.Drafted (asked : Asked) (d : Draft) : Prop where
  accepted : (History.of asked.additions).accepted = asked.additions
  data : d.data = (History.of asked.additions).data
  memo : d.memo = asked.memo
  short : asked.memo.utf8ByteSize ≤ Draft.maxMemoBytes
  fee : d.fee = asked.fee
  validDuration : d.validDuration = 120 * Draft.second
  nodeIds : d.nodeIds = none
  transactionId : d.transactionId = none

/-- A draft that parameters lead to is one of what they ask for. -/
theorem TransferParams.draft_eq_ok {params : Json} {d : Draft}
    (h : (TransferParams.parse params).bind TransferParams.draft = .ok d) :
    ∃ asked : Asked, asked.By params ∧ asked.Drafted d := by
  obtain ⟨p, hparse, h⟩ := bind_eq_ok.1 h
  have hread : ofJson params = .ok p := by
    unfold TransferParams.parse at hparse
    split at hparse
    · cases hparse
      assumption
    · cases hparse
  -- The entries are added first, then the memo is set, and then the fee, each to what came before.
  obtain ⟨⟨entries, hentries, htransfers⟩, hmemo, hfee⟩ := TransferParams.of_ofJson hread
  obtain ⟨filled, hfilled, h⟩ := bind_eq_ok.1 h
  obtain ⟨additions, hadditions, haccepted, rfl⟩ :=
    addAll_eq_ok htransfers [] rfl rfl hfilled
  rw [List.nil_append] at haccepted h
  obtain ⟨memoed, hmemoed, h⟩ := bind_eq_ok.1 h
  obtain ⟨memo, hwritten, hshort, rfl⟩ := setMemo_eq_ok hmemo rfl hmemoed
  obtain ⟨hceiling, hd⟩ := setFee_eq_ok hfee rfl h
  refine ⟨⟨additions, memo, d.fee⟩, ⟨⟨entries, hentries, hadditions⟩, hwritten, hceiling⟩, ?_⟩
  rw [hd]
  exact ⟨haccepted, rfl, rfl, hshort, rfl, rfl, rfl, rfl⟩

end LedgerClient.Rpc
