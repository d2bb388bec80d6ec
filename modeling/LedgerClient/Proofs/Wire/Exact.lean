import LedgerClient.Proofs.Wire.Binary

/-!
# `LedgerClient.Proofs.Wire.Exact`: a byte string is a message in one way

What is signed, hashed and compared are bytes, so it matters that they
say one thing only. A lawful codec makes reading the exact opposite of
writing: a byte string is read as a value if and only if it begins
with the bytes of that value. Everything else about a form follows
from that, and `Codec.Exact` collects it: no value's bytes are those
of another, or the beginning of them, and whatever does not begin with
the bytes of any value is refused, be it too short, a number that no
alternative has, or a length that runs past the end.

`Travels` lists what this is said of: the messages and all that is
inside them. Its values may be of any size that eight bytes can
announce, which is what `Fits` asks and what every value that a
machine can hold satisfies; `TransactionBody.codec_fits_iff` says what
that comes to for a body.
-/

set_option autoImplicit false

namespace LedgerClient.Wire

variable {α : Type}

/-! ### Reading and writing are opposites -/

namespace Codec

variable {c : Codec α}

/-- A byte string is read as the value whose bytes it begins with. -/
theorem Lawful.decode?_eq_some_iff (hc : c.Lawful) {bytes : Bytes} {v : α} :
    c.decode? bytes = some v ↔ c.Fits v ∧ c.encode v <+: bytes := by
  constructor
  · intro h
    simp only [decode?, Option.map_eq_some_iff, Prod.exists] at h
    obtain ⟨v', rest, hdecode, rfl⟩ := h
    exact ⟨hc.fits_of_decode _ _ _ hdecode, rest, (hc.eq_of_decode _ _ _ hdecode).symm⟩
  · rintro ⟨hfits, rest, rfl⟩
    exact hc.decode?_append hfits rest

/-- Values whose bytes begin the same byte string are the same. -/
theorem Lawful.eq_of_prefix (hc : c.Lawful) {bytes : Bytes} {v w : α} (hv : c.Fits v)
    (hw : c.Fits w) (hvb : c.encode v <+: bytes) (hwb : c.encode w <+: bytes) : v = w := by
  have hsome := hc.decode?_eq_some_iff.2 ⟨hw, hwb⟩
  rw [hc.decode?_eq_some_iff.2 ⟨hv, hvb⟩] at hsome
  exact Option.some.inj hsome

/-- The value that is read, as a message is. -/
theorem decoded_eq_ok_iff {bytes : Bytes} {v : α} :
    c.decoded bytes = .ok v ↔ c.decode? bytes = some v := by
  unfold decoded
  cases c.decode? bytes <;> simp

/-- The one way in which reading fails. -/
theorem decoded_eq_error_iff {bytes : Bytes} {e : Error} :
    c.decoded bytes = .error e ↔ c.decode? bytes = none ∧ e = .codec .undecodable := by
  unfold decoded
  cases c.decode? bytes <;> simp [eq_comm]

/-- Reading is the exact opposite of writing, and what follows from it. -/
structure Exact (c : Codec α) : Prop where
  /-- What was written is read back, whatever follows it. -/
  decoded_append : ∀ v rest, c.Fits v → c.decoded (c.encode v ++ rest) = .ok v
  /-- Nothing is read but what was written. -/
  prefix_of_decoded : ∀ bytes v, c.decoded bytes = .ok v → c.Fits v ∧ c.encode v <+: bytes
  /-- No two values share their bytes. -/
  injective : ∀ v w, c.Fits v → c.Fits w → c.encode v = c.encode w → v = w
  /-- No value's bytes are the beginning of another's. -/
  prefixFree : ∀ v w, c.Fits v → c.Fits w → c.encode v <+: c.encode w → v = w
  /-- Whatever does not begin with the bytes of a value is refused. -/
  refused : ∀ bytes, (∀ v, c.Fits v → ¬ c.encode v <+: bytes) →
    c.decoded bytes = .error (.codec .undecodable)
  /-- A value of which the end is missing is refused. -/
  truncated : ∀ v count, c.Fits v → count < (c.encode v).length →
    c.decoded ((c.encode v).take count) = .error (.codec .undecodable)

/-- A lawful codec is exact. -/
theorem Lawful.exact (hc : c.Lawful) : c.Exact := by
  -- Bytes are refused if they begin with no value, and that is the only way to be refused.
  have hrefused (bytes : Bytes) (hnone : ∀ v, c.Fits v → ¬ c.encode v <+: bytes) :
      c.decoded bytes = .error (.codec .undecodable) := by
    refine decoded_eq_error_iff.2 ⟨Option.eq_none_iff_forall_ne_some.2 fun v hv => ?_, rfl⟩
    obtain ⟨hfits, hbegins⟩ := hc.decode?_eq_some_iff.1 hv
    exact hnone v hfits hbegins
  refine ⟨?_, ?_, ?_, ?_, hrefused, ?_⟩
  · exact fun v rest hv => decoded_eq_ok_iff.2 (hc.decode?_append hv rest)
  · exact fun bytes v h => hc.decode?_eq_some_iff.1 (decoded_eq_ok_iff.1 h)
  · exact fun v w hv hw heq => hc.eq_of_prefix hv hw (heq ▸ List.prefix_rfl) List.prefix_rfl
  · exact fun v w hv hw hbegins => hc.eq_of_prefix hv hw hbegins List.prefix_rfl
  · intro v count hv hcount
    refine hrefused _ fun w hw hbegins => ?_
    -- Such a value would be `v` itself, which is too long.
    cases hc.eq_of_prefix hw hv (hbegins.trans (List.take_prefix _ _)) List.prefix_rfl
    have hle := hbegins.length_le
    rw [List.length_take] at hle
    omega

end Codec

/-! ### All that travels -/

/-- The codecs of the messages, of all that is inside them, and of the ledger's identifiers. -/
inductive Travels : {α : Type} → Codec α → Prop
  | transactionBody : Travels TransactionBody.codec
  | scheduledBody : Travels ScheduledBody.codec
  | cryptoTransfer : Travels CryptoTransfer.codec
  | tokenTransferList : Travels TokenTransferList.codec
  | signedTransaction : Travels SignedTransaction.codec
  | query : Travels Query.codec
  | request : Travels Request.codec
  | response : Travels Response.codec
  | operation : Travels Operation.codec
  | accountAmount : Travels AccountAmount.codec
  | nftTransfer : Travels NftTransfer.codec
  | signaturePair : Travels SignaturePair.codec
  | transactionId : Travels TransactionId.codec
  | timestamp : Travels Timestamp.codec
  | receipt : Travels Receipt.codec
  | payload : Travels Payload.codec
  | status : Travels Status.codec
  | accountId : Travels AccountId.codec
  | tokenId : Travels TokenId.codec
  | nftId : Travels NftId.codec
  | keyBytes : Travels KeyBytes.codec
  | bytes : Travels Codec.bytes
  | text : Travels Codec.text
  | bool : Travels Codec.bool
  | uint8 : Travels Codec.uint8
  | uint32 : Travels Codec.uint32
  | uint64 : Travels Codec.uint64
  | int32 : Travels Codec.int32
  | int64 : Travels Codec.int64
  | list {α : Type} {c : Codec α} (travels : Travels c) : Travels c.list
  | option {α : Type} {c : Codec α} (travels : Travels c) : Travels c.option

/-- All that travels has a lawful codec. -/
theorem Travels.lawful {c : Codec α} (h : Travels c) : c.Lawful := by
  -- The induction follows how envelopes are made up, and only lists and options are made of others.
  induction h with
  | transactionBody => exact TransactionBody.codec_lawful
  | scheduledBody => exact ScheduledBody.codec_lawful
  | cryptoTransfer => exact CryptoTransfer.codec_lawful
  | tokenTransferList => exact TokenTransferList.codec_lawful
  | signedTransaction => exact SignedTransaction.codec_lawful
  | query => exact Query.codec_lawful
  | request => exact Request.codec_lawful
  | response => exact Response.codec_lawful
  | operation => exact Operation.codec_lawful
  | accountAmount => exact AccountAmount.codec_lawful
  | nftTransfer => exact NftTransfer.codec_lawful
  | signaturePair => exact SignaturePair.codec_lawful
  | transactionId => exact TransactionId.codec_lawful
  | timestamp => exact Timestamp.codec_lawful
  | receipt => exact Receipt.codec_lawful
  | payload => exact Payload.codec_lawful
  | status => exact Status.codec_lawful
  | accountId => exact AccountId.codec_lawful
  | tokenId => exact TokenId.codec_lawful
  | nftId => exact NftId.codec_lawful
  | keyBytes => exact KeyBytes.codec_lawful
  | bytes => exact Codec.bytes_lawful
  | text => exact Codec.text_lawful
  | bool => exact Codec.bool_lawful
  | uint8 => exact Codec.uint8_lawful
  | uint32 => exact Codec.uint32_lawful
  | uint64 => exact Codec.uint64_lawful
  | int32 => exact Codec.int32_lawful
  | int64 => exact Codec.int64_lawful
  | list _ ih => exact Codec.list_lawful ih
  | option _ ih => exact Codec.option_lawful ih

/-! ### Which values have a form -/

/-- The two lists of a token's movements can be announced. -/
def TokenTransferList.Announced (l : TokenTransferList) : Prop :=
  l.transfers.length < UInt64.size ∧ l.nftTransfers.length < UInt64.size

/-- All lists of a transfer can be announced. -/
def CryptoTransfer.Announced (t : CryptoTransfer) : Prop :=
  t.transfers.length < UInt64.size ∧ t.tokenTransfers.length < UInt64.size ∧
    ∀ l ∈ t.tokenTransfers, l.Announced

/-- An amount always fits: there is no length in it. -/
theorem AccountAmount.codec_fits (a : AccountAmount) : AccountAmount.codec.Fits a :=
  ⟨⟨trivial, trivial, trivial⟩, trivial, trivial⟩

/-- So does a move of a unique token. -/
theorem NftTransfer.codec_fits (t : NftTransfer) : NftTransfer.codec.Fits t :=
  ⟨⟨trivial, trivial, trivial⟩, ⟨trivial, trivial, trivial⟩, trivial, trivial⟩

/-- The list of a token fits if the lengths of its two lists can be announced. -/
theorem TokenTransferList.codec_fits_iff (l : TokenTransferList) :
    TokenTransferList.codec.Fits l ↔ l.Announced := by
  constructor
  · rintro ⟨-, ⟨htransfers, -⟩, ⟨hnfts, -⟩, -⟩
    exact ⟨htransfers, hnfts⟩
  · rintro ⟨htransfers, hnfts⟩
    refine ⟨⟨trivial, trivial, trivial⟩, ⟨htransfers, fun a _ => a.codec_fits⟩,
      ⟨hnfts, fun t _ => t.codec_fits⟩, ?_⟩
    show Codec.uint32.option.Fits l.expectedDecimals
    cases l.expectedDecimals <;> trivial

/-- A transfer fits if the lengths of all its lists can be announced. -/
theorem CryptoTransfer.codec_fits_iff (t : CryptoTransfer) :
    CryptoTransfer.codec.Fits t ↔ t.Announced := by
  simp only [Announced, ← TokenTransferList.codec_fits_iff]
  constructor
  · rintro ⟨⟨htransfers, -⟩, hlists⟩
    exact ⟨htransfers, hlists⟩
  · rintro ⟨htransfers, hlists⟩
    exact ⟨⟨htransfers, fun a _ => a.codec_fits⟩, hlists⟩

/-- A body has a form if and only if its memo and each of its lists has a length that eight
bytes can announce. -/
theorem TransactionBody.codec_fits_iff (b : TransactionBody) :
    TransactionBody.codec.Fits b ↔
      (Bytes.ofText b.memo).length < UInt64.size ∧
        match b.operation with
        | .cryptoTransfer t => t.Announced := by
  -- The operation is a transfer, so its fields can be named.
  obtain ⟨id, node, fee, secs, memo, ⟨t⟩⟩ := b
  simp only [← CryptoTransfer.codec_fits_iff]
  constructor
  · rintro ⟨-, -, -, -, hmemo, -, ht⟩
    exact ⟨hmemo, ht⟩
  · rintro ⟨hmemo, ht⟩
    exact ⟨⟨⟨trivial, trivial, trivial⟩, trivial, trivial⟩, ⟨trivial, trivial, trivial⟩, trivial,
      trivial, hmemo, trivial, ht⟩

/-! ### The theorem -/

/-- For every message, and for all that is inside one, reading is the exact opposite of writing:
what was written is read back whatever follows it, nothing else is read, no two values share
their bytes, none has bytes that are the beginning of another's, and every byte string that does
not begin with the bytes of a value is refused. -/
theorem codecs_exact {c : Codec α} (h : Travels c) : c.Exact :=
  h.lawful.exact

/-- A transfer with an approved movement of tokens, sent with a signature of two bytes and
followed by bytes of something else. -/
theorem codecs_exact_request :
    let body : TransactionBody :=
      { transactionId := ⟨⟨0, 0, 2⟩, ⟨1700000000, 7⟩⟩
        nodeAccountId := ⟨0, 0, 3⟩
        transactionFee := 100000000
        validDurationSecs := 120
        memo := "hi"
        operation := .cryptoTransfer
          { transfers := []
            tokenTransfers :=
              [⟨⟨0, 0, 5⟩, [⟨⟨0, 0, 2⟩, -5, true⟩, ⟨⟨0, 0, 9⟩, 5, false⟩], [], some 2⟩] } }
    let request : Request := .submitTransaction
      ⟨TransactionBody.codec.encode body, [⟨⟨List.replicate 32 7, rfl⟩, [1, 2]⟩]⟩
    Travels Request.codec ∧ Request.codec.Fits request ∧
      Request.codec.decoded (Request.codec.encode request ++ [255, 0]) = .ok request := by
  intro body request
  -- The lengths are those of the body's bytes, of the list of signatures, and of the signature.
  have hfits : Request.codec.Fits request := by
    refine ⟨?_, ?_, ?_⟩
    · show (TransactionBody.codec.encode body).length < UInt64.size
      decide +kernel
    · show 1 < UInt64.size
      decide
    · exact List.forall_mem_singleton.2 ⟨trivial, show 2 < UInt64.size by decide⟩
  exact ⟨.request, hfits, (codecs_exact .request).decoded_append request [255, 0] hfits⟩

/-- What is too short. -/
example : Response.codec.decoded [255, 255, 255] = .error (.codec .undecodable) :=
  rfl

/-- There is no status with the number twenty-four. -/
example : Status.codec.decoded [24, 0, 0, 0] = .error (.codec .undecodable) :=
  rfl

/-- The byte that leads an optional value is 0 or 1. -/
example : Codec.uint32.option.decoded [2, 0, 0, 0, 0] = .error (.codec .undecodable) :=
  rfl

/-- The announced length runs past the end. -/
example : Codec.bytes.decoded [3, 0, 0, 0, 0, 0, 0, 0, 1, 2] = .error (.codec .undecodable) :=
  rfl

/-- The byte 255 is part of no text. -/
example : Codec.text.decoded [1, 0, 0, 0, 0, 0, 0, 0, 255] = .error (.codec .undecodable) :=
  rfl

end LedgerClient.Wire
