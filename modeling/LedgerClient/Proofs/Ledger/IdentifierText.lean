import LedgerClient.Proofs.Ledger.TimestampText

/-!
# `LedgerClient.Proofs.Ledger.IdentifierText`: identifiers and their texts

Each identifier has a grammar, which says nothing about how it is read: an
entity number is three numerals with points between them (`Triple`), an NFT
is a token and a serial number (`NftId.Spelled`), and a transaction is an
account and an instant (`TransactionId.Spelled`). `ReadsBack` says of a reader
that it follows a grammar, in both directions, and how it goes together with
the text that is written.

The outer separator is never in an entity number (`Triple.notMem`), so the
first one of a text is the one that was written between its two sides.

* `identifier_text_exact`: accounts, tokens, NFTs and transactions are read
  from exactly the texts of their grammar, and each is read again from its
  own text. An NFT is excepted if its serial number is not positive.
-/

set_option autoImplicit false

namespace LedgerClient

open Text Text.Decimal

/-! ### The grammar of identifiers -/

/-- Three unsigned numerals with points between them, and the numbers that they denote. -/
def Triple (cs : List Char) (shard realm num : Nat) : Prop :=
  ∃ a b c : List Char, cs = a ++ '.' :: (b ++ '.' :: c) ∧
    Unsigned a shard ∧ Unsigned b realm ∧ Unsigned c num

/-- Three unsigned numerals of 64 bits with points between them. -/
def TripleText (cs : List Char) : Prop :=
  ∃ shard realm num : Nat, Triple cs shard realm num ∧
    shard < 2 ^ 64 ∧ realm < 2 ^ 64 ∧ num < 2 ^ 64

/-- The characters denote the account. -/
def AccountId.Spelled (cs : List Char) (id : AccountId) : Prop :=
  Triple cs id.shard.toNat id.realm.toNat id.num.toNat

/-- The characters denote the token. -/
def TokenId.Spelled (cs : List Char) (id : TokenId) : Prop :=
  Triple cs id.shard.toNat id.realm.toNat id.num.toNat

/-- A token in front of the first slash, and a positive number of 64 bits with its sign behind
it. -/
def NftText (cs : List Char) : Prop :=
  ∃ (token serial : List Char) (n : Int), cs = token ++ '/' :: serial ∧ '/' ∉ token ∧
    TripleText token ∧ Signed serial n ∧ 0 < n ∧ n < 2 ^ 63

/-- The characters denote the NFT, which has a positive serial number. -/
def NftId.Spelled (cs : List Char) (nft : NftId) : Prop :=
  ∃ token serial : List Char, cs = token ++ '/' :: serial ∧ '/' ∉ token ∧
    nft.tokenId.Spelled token ∧ Signed serial nft.serial.toInt ∧ 0 < nft.serial.toInt

/-- An account in front of the first at sign, and behind it the text of an instant. -/
def TransactionText (cs : List Char) : Prop :=
  ∃ account start : List Char, cs = account ++ '@' :: start ∧ '@' ∉ account ∧
    TripleText account ∧ ∃ t, Timestamp.parse (String.ofList start) = .ok t

/-- The characters denote the transaction. -/
def TransactionId.Spelled (cs : List Char) (id : TransactionId) : Prop :=
  ∃ account start : List Char, cs = account ++ '@' :: start ∧ '@' ∉ account ∧
    id.accountId.Spelled account ∧ Timestamp.parse (String.ofList start) = .ok id.validStart

/-- A reader of texts follows a grammar, and goes together with the text that is written. The
grammar says which texts are `accepted` and what each one `denotes`; `returns` says for which values
the text is read as the value again. -/
structure ReadsBack {α : Type} (parse : String → Except Error α) (text : α → String)
    (accepted : List Char → Prop) (denotes : List Char → α → Prop) (returns : α → Prop) : Prop where
  accepts : ∀ s, (∃ a, parse s = .ok a) ↔ accepted s.toList
  reads : ∀ s a, parse s = .ok a ↔ denotes s.toList a
  returns : ∀ a, parse (text a) = .ok a ↔ returns a
  again : ∀ s a, parse s = .ok a → parse (text a) = .ok a

/-! ### Entity numbers -/

/-- Nothing but signs, digits and points is in an entity number. -/
theorem Triple.notMem {d : Char} {cs : List Char} {shard realm num : Nat}
    (h : Triple cs shard realm num) (hdigit : isDigit d = false) (hplus : d ≠ '+')
    (hminus : d ≠ '-') (hpoint : d ≠ '.') : d ∉ cs := by
  obtain ⟨a, b, c, rfl, ha, hb, hc⟩ := h
  have ha' := ha.signed.notMem hdigit hplus hminus
  have hb' := hb.signed.notMem hdigit hplus hminus
  have hc' := hc.signed.notMem hdigit hplus hminus
  simp [ha', hb', hc', hpoint]

/-- There is no slash in a triple, so the first one in the text of a unique token ends its triple.
-/
theorem Triple.slash_notMem {cs : List Char} {shard realm num : Nat}
    (h : Triple cs shard realm num) : '/' ∉ cs :=
  h.notMem rfl (by decide) (by decide) (by decide)

/-- There is no at sign either, so the first one in the text of a transaction ends the triple of the
payer. -/
theorem Triple.at_notMem {cs : List Char} {shard realm num : Nat}
    (h : Triple cs shard realm num) : '@' ∉ cs :=
  h.notMem rfl (by decide) (by decide) (by decide)

/-- The reader of entity numbers follows their grammar. -/
theorem triple?_eq_some_iff {cs : List Char} {shard realm num : UInt64} :
    triple? cs = some (shard, realm, num) ↔
      Triple cs shard.toNat realm.toNat num.toNat := by
  constructor
  · -- The three parts are what the reader has cut, with the points put back.
    intro h
    rw [triple?.eq_def] at h
    split at h
    next a b c hparts =>
      simp only [Option.bind_eq_bind, Option.bind_eq_some_iff] at h
      obtain ⟨shard', ha, realm', hb, num', hc, hids⟩ := h
      cases hids
      obtain ⟨hcs, -⟩ := (splitAll_eq_iff (List.cons_ne_nil _ _)).1 hparts
      refine ⟨a, b, c, ?_, uint64?_eq_some_iff.1 ha, uint64?_eq_some_iff.1 hb,
        uint64?_eq_some_iff.1 hc⟩
      rw [hcs]
      simp [List.intercalate]
    next => cases h
  · rintro ⟨a, b, c, rfl, ha, hb, hc⟩
    -- No part has a point in it, so the cut is where the points were written.
    have hpoint {part : List Char} {n : Nat} (h : Unsigned part n) : '.' ∉ part :=
      h.signed.notMem rfl (by decide) (by decide)
    have hparts : splitAll '.' (a ++ '.' :: (b ++ '.' :: c)) = [a, b, c] := by
      rw [splitAll_eq_iff (List.cons_ne_nil _ _)]
      simp [List.intercalate, hpoint ha, hpoint hb, hpoint hc]
    rw [triple?, hparts]
    simp only [uint64?_eq_some_iff.2 ha, uint64?_eq_some_iff.2 hb, uint64?_eq_some_iff.2 hc]
    rfl

/-- What is written for three numbers denotes them. -/
theorem triple_tripleText (shard realm num : UInt64) :
    Triple (tripleText shard realm num).toList shard.toNat realm.toNat num.toNat := by
  refine ⟨_, _, _, ?_, unsigned_natural _, unsigned_natural _, unsigned_natural _⟩
  simp [tripleText, String.toList_append]

/-- Three numerals of 64 bits denote numbers of 64 bits. -/
theorem tripleText_iff {cs : List Char} :
    TripleText cs ↔ ∃ shard realm num : UInt64,
      Triple cs shard.toNat realm.toNat num.toNat := by
  constructor
  · rintro ⟨shard, realm, num, htriple, hshard, hrealm, hnum⟩
    refine ⟨UInt64.ofNat shard, UInt64.ofNat realm, UInt64.ofNat num, ?_⟩
    rwa [UInt64.toNat_ofNat_of_lt' hshard, UInt64.toNat_ofNat_of_lt' hrealm,
      UInt64.toNat_ofNat_of_lt' hnum]
  · rintro ⟨shard, realm, num, htriple⟩
    exact ⟨_, _, _, htriple, shard.toNat_lt, realm.toNat_lt, num.toNat_lt⟩

/-! ### Accounts and tokens -/

/-- An account is read from the text that spells it, and from no other. -/
theorem AccountId.parse_eq_ok_iff {s : String} {id : AccountId} :
    AccountId.parse s = .ok id ↔ id.Spelled s.toList := by
  show _ ↔ Triple s.toList _ _ _
  rw [← triple?_eq_some_iff, AccountId.parse]
  cases triple? s.toList with
  | none => simp
  | some ids =>
    obtain ⟨shard, realm, num⟩ := ids
    cases id
    simp

/-- A token is read in the same way. -/
theorem TokenId.parse_eq_ok_iff {s : String} {id : TokenId} :
    TokenId.parse s = .ok id ↔ id.Spelled s.toList := by
  show _ ↔ Triple s.toList _ _ _
  rw [← triple?_eq_some_iff, TokenId.parse]
  cases triple? s.toList with
  | none => simp
  | some ids =>
    obtain ⟨shard, realm, num⟩ := ids
    cases id
    simp

/-- An account is spelled by its own text. -/
theorem AccountId.spelled_text (id : AccountId) : id.Spelled id.text.toList :=
  triple_tripleText id.shard id.realm id.num

/-- So is a token. -/
theorem TokenId.spelled_text (id : TokenId) : id.Spelled id.text.toList :=
  triple_tripleText id.shard id.realm id.num

/-- A text spells an account if it has the form of a triple. -/
theorem AccountId.exists_spelled_iff {cs : List Char} :
    (∃ id : AccountId, id.Spelled cs) ↔ TripleText cs := by
  rw [tripleText_iff]
  exact ⟨fun ⟨id, h⟩ => ⟨id.shard, id.realm, id.num, h⟩,
    fun ⟨shard, realm, num, h⟩ => ⟨⟨shard, realm, num⟩, h⟩⟩

/-- It spells a token under the same condition. -/
theorem TokenId.exists_spelled_iff {cs : List Char} :
    (∃ id : TokenId, id.Spelled cs) ↔ TripleText cs := by
  rw [tripleText_iff]
  exact ⟨fun ⟨id, h⟩ => ⟨id.shard, id.realm, id.num, h⟩,
    fun ⟨shard, realm, num, h⟩ => ⟨⟨shard, realm, num⟩, h⟩⟩

/-! ### NFTs -/

/-- The serial number is looked at before the token. -/
theorem NftId.parse_eq_ok_iff {s : String} {nft : NftId} :
    NftId.parse s = .ok nft ↔ nft.Spelled s.toList := by
  rw [NftId.parse]
  constructor
  · -- The cut is at the first slash, so there is none in front of it.
    intro h
    split at h
    next => cases h
    next token serial hcut =>
      obtain ⟨hcs, hslash⟩ := splitFirst_eq_some_iff.1 hcut
      split at h
      next => cases h
      next n hserial =>
        obtain ⟨hn, hpos⟩ := Option.filter_eq_some_iff.1 hserial
        cases htoken : TokenId.parse (String.ofList token) with
        | error e =>
          rw [htoken] at h
          cases h
        | ok id =>
          rw [htoken] at h
          cases h
          have hspelled := TokenId.parse_eq_ok_iff.1 htoken
          rw [String.toList_ofList] at hspelled
          exact ⟨token, serial, hcs, hslash, hspelled, int64?_eq_some_iff.1 hn,
            Int64.lt_iff_toInt_lt.1 (of_decide_eq_true hpos)⟩
  · -- What is in front of the slash and behind it is read part by part.
    rintro ⟨token, serial, hcs, hslash, hspelled, hserial, hpos⟩
    have hcut := splitFirst_eq_some_iff.2 ⟨hcs, hslash⟩
    have hn : (int64? serial).filter (0 < ·) = some nft.serial := by
      refine Option.filter_eq_some_iff.2 ⟨int64?_eq_some_iff.2 hserial, decide_eq_true ?_⟩
      exact Int64.lt_iff_toInt_lt.2 hpos
    have htoken : TokenId.parse (String.ofList token) = .ok nft.tokenId := by
      rw [TokenId.parse_eq_ok_iff, String.toList_ofList]
      exact hspelled
    simp only [hcut, hn, htoken]
    rfl

/-- The text of an NFT is cut at the slash that was written. -/
theorem NftId.toList_text (nft : NftId) :
    nft.text.toList = nft.tokenId.text.toList ++ '/' :: (integer nft.serial.toInt).toList := by
  simp [NftId.text, String.toList_append]

/-- What is written for an NFT with a positive serial number denotes it. -/
theorem NftId.spelled_text {nft : NftId} (h : 0 < nft.serial.toInt) : nft.Spelled nft.text.toList :=
  ⟨_, _, nft.toList_text, nft.tokenId.spelled_text.slash_notMem, nft.tokenId.spelled_text,
    signed_integer _, h⟩

/-- What is written for an NFT without a positive serial number denotes nothing. -/
theorem NftId.not_spelled_text {nft other : NftId} (h : nft.serial.toInt ≤ 0) :
    ¬ other.Spelled nft.text.toList := by
  rintro ⟨token, serial, hcs, hslash, -, hserial, hpos⟩
  -- The slash that was written is the first one.
  have hcut := splitFirst_eq_some_iff.2 ⟨hcs, hslash⟩
  rw [splitFirst_eq_some_iff.2 ⟨nft.toList_text, nft.tokenId.spelled_text.slash_notMem⟩] at hcut
  cases hcut
  -- A text denotes one number only.
  have hread := signed?_eq_some_iff.2 hserial
  rw [signed?_eq_some_iff.2 (signed_integer nft.serial.toInt), Option.some.injEq] at hread
  omega

/-- A text spells a unique token if it has the form of one. -/
theorem NftId.exists_spelled_iff {cs : List Char} :
    (∃ nft : NftId, nft.Spelled cs) ↔ NftText cs := by
  constructor
  · rintro ⟨nft, token, serial, hcs, hslash, htoken, hserial, hpos⟩
    exact ⟨token, serial, _, hcs, hslash, TokenId.exists_spelled_iff.1 ⟨_, htoken⟩, hserial, hpos,
      nft.serial.toInt_lt⟩
  · rintro ⟨token, serial, n, hcs, hslash, htoken, hserial, hpos, hlt⟩
    obtain ⟨id, hid⟩ := TokenId.exists_spelled_iff.2 htoken
    have hn : (Int64.ofInt n).toInt = n := Int64.toInt_ofInt_of_le (by omega) (by omega)
    exact ⟨⟨id, Int64.ofInt n⟩, token, serial, hcs, hslash, hid, by rwa [hn], by rwa [hn]⟩

/-! ### Transactions -/

/-- A transaction is read from the text that spells it, and from no other. -/
theorem TransactionId.parse_eq_ok_iff {s : String} {id : TransactionId} :
    TransactionId.parse s = .ok id ↔ id.Spelled s.toList := by
  rw [TransactionId.parse]
  constructor
  · -- Both parts are read, or the text is refused.
    intro h
    split at h
    next => cases h
    next account start hcut =>
      obtain ⟨hcs, hat⟩ := splitFirst_eq_some_iff.1 hcut
      cases haccount : AccountId.parse (String.ofList account) with
      | error e =>
        rw [haccount] at h
        cases h
      | ok payer =>
        cases hstart : Timestamp.parse (String.ofList start) with
        | error e =>
          rw [haccount, hstart] at h
          cases h
        | ok t =>
          rw [haccount, hstart] at h
          cases h
          have hspelled := AccountId.parse_eq_ok_iff.1 haccount
          rw [String.toList_ofList] at hspelled
          exact ⟨account, start, hcs, hat, hspelled, hstart⟩
  · -- No account has an at sign in its text, so the cut is where it was written.
    rintro ⟨account, start, hcs, hat, hspelled, hstart⟩
    have hcut := splitFirst_eq_some_iff.2 ⟨hcs, hat⟩
    have haccount : AccountId.parse (String.ofList account) = .ok id.accountId := by
      rw [AccountId.parse_eq_ok_iff, String.toList_ofList]
      exact hspelled
    simp only [hcut, haccount, hstart]
    rfl

/-- What is written for a transaction with a valid instant denotes it. -/
theorem TransactionId.spelled_text {id : TransactionId} (h : id.validStart.Valid) :
    id.Spelled id.text.toList := by
  refine ⟨id.accountId.text.toList, id.validStart.text.toList, ?_,
    id.accountId.spelled_text.at_notMem, id.accountId.spelled_text, ?_⟩
  · simp [TransactionId.text, String.toList_append]
  · rw [String.ofList_toList]
    exact Timestamp.parse_text h

/-- A text spells a transaction if it has the form of one. -/
theorem TransactionId.exists_spelled_iff {cs : List Char} :
    (∃ id : TransactionId, id.Spelled cs) ↔ TransactionText cs := by
  constructor
  · rintro ⟨id, account, start, hcs, hat, haccount, hstart⟩
    exact ⟨account, start, hcs, hat, AccountId.exists_spelled_iff.1 ⟨_, haccount⟩, _, hstart⟩
  · rintro ⟨account, start, hcs, hat, haccount, t, ht⟩
    obtain ⟨payer, hpayer⟩ := AccountId.exists_spelled_iff.2 haccount
    exact ⟨⟨payer, t⟩, account, start, hcs, hat, hpayer, ht⟩

/-! ### Reading and writing -/

/-- A reader follows a grammar and returns what is written, if it accepts what the grammar does, and
what is written for a value denotes it whenever the value is one that can be read. -/
theorem ReadsBack.of_spelled {α : Type} {parse : String → Except Error α} {text : α → String}
    {accepted : List Char → Prop} {denotes : List Char → α → Prop} {returns : α → Prop}
    (hreads : ∀ s a, parse s = .ok a ↔ denotes s.toList a)
    (haccepted : ∀ cs, (∃ a, denotes cs a) ↔ accepted cs)
    (hreturns : ∀ cs a, denotes cs a → returns a)
    (htext : ∀ a, returns a → denotes (text a).toList a) :
    ReadsBack parse text accepted denotes returns where
  accepts := by
    intro s
    simp only [hreads, haccepted]
  reads := hreads
  returns := by
    intro a
    rw [hreads]
    exact ⟨hreturns _ a, htext a⟩
  again := by
    intro s a h
    exact (hreads _ a).2 (htext a (hreturns _ a ((hreads s a).1 h)))

/-- Each identifier is read from exactly the texts of its grammar, as the numbers that the numerals
denote, and the text of what was read is read as the same identifier. An account and a token are
read again from their own text, a transaction if its instant is valid, and an NFT if its serial
number is positive. The text of any other NFT is not read at all. -/
theorem identifier_text_exact :
    ReadsBack AccountId.parse AccountId.text TripleText (fun cs id => id.Spelled cs)
      (fun _ => True) ∧
    ReadsBack TokenId.parse TokenId.text TripleText (fun cs id => id.Spelled cs) (fun _ => True) ∧
    ReadsBack NftId.parse NftId.text NftText (fun cs nft => nft.Spelled cs)
      (fun nft => 0 < nft.serial) ∧
    ReadsBack TransactionId.parse TransactionId.text TransactionText (fun cs id => id.Spelled cs)
      (fun id => id.validStart.Valid) ∧
    ∀ nft other : NftId, nft.serial ≤ 0 → NftId.parse nft.text ≠ .ok other := by
  refine ⟨?account, ?token, ?nft, ?transaction, ?unread⟩
  case account =>
    exact .of_spelled (fun _ _ => AccountId.parse_eq_ok_iff) (fun _ => AccountId.exists_spelled_iff)
      (fun _ _ _ => trivial) (fun id _ => id.spelled_text)
  case token =>
    exact .of_spelled (fun _ _ => TokenId.parse_eq_ok_iff) (fun _ => TokenId.exists_spelled_iff)
      (fun _ _ _ => trivial) (fun id _ => id.spelled_text)
  case nft =>
    refine .of_spelled (fun _ _ => NftId.parse_eq_ok_iff) (fun _ => NftId.exists_spelled_iff) ?_ ?_
    · rintro cs nft ⟨-, -, -, -, -, -, hpos⟩
      exact Int64.lt_iff_toInt_lt.2 hpos
    · intro nft hpos
      -- A serial number is positive by the grammar of its text, and must be so to be read again.
      exact NftId.spelled_text (Int64.lt_iff_toInt_lt.1 hpos)
  case transaction =>
    refine .of_spelled (fun _ _ => TransactionId.parse_eq_ok_iff)
      (fun _ => TransactionId.exists_spelled_iff) ?_ fun id h => TransactionId.spelled_text h
    -- Whatever is read as an instant is valid.
    rintro cs id ⟨account, start, -, -, -, hstart⟩
    exact Timestamp.valid_of_parse hstart
  case unread =>
    intro nft other hserial h
    exact NftId.not_spelled_text (Int64.le_iff_toInt_le.1 hserial) (NftId.parse_eq_ok_iff.1 h)

end LedgerClient
