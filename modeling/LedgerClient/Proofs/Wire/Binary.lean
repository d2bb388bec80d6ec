import LedgerClient.Proofs.Wire.Codec
import LedgerClient.Wire.Binary

/-!
# `LedgerClient.Proofs.Wire.Binary`: every message is read back

Each message type has a lawful codec, because its parts have one and
the fields of the type are these parts. Two codecs are not made of
others in this way: the number of a status, of which there are only so
many, and the bytes of a key, of which there are always thirty-two.
-/

set_option autoImplicit false

namespace LedgerClient

open Wire (Codec)

/-- Three numbers are lawful one after the other. Accounts and tokens are named by such triples. -/
theorem tripleCodec_lawful : tripleCodec.Lawful :=
  Codec.pair_lawful Codec.uint64_lawful (Codec.pair_lawful Codec.uint64_lawful Codec.uint64_lawful)

/-- An account is its triple. -/
theorem AccountId.codec_lawful : AccountId.codec.Lawful :=
  Codec.iso_lawful tripleCodec_lawful (fun _ => rfl) fun _ => rfl

/-- So is a token. -/
theorem TokenId.codec_lawful : TokenId.codec.Lawful :=
  Codec.iso_lawful tripleCodec_lawful (fun _ => rfl) fun _ => rfl

/-- A unique token is a token with a number. -/
theorem NftId.codec_lawful : NftId.codec.Lawful :=
  Codec.iso_lawful (Codec.pair_lawful TokenId.codec_lawful Codec.int64_lawful) (fun _ => rfl)
    fun _ => rfl

namespace Status

/-- A number is that of the code that it is read as. -/
theorem number_of_ofNumber? {n : Nat} {s : Status} (h : ofNumber? n = some s) : s.number = n := by
  have hdistinct : all.Nodup := by decide
  obtain ⟨hn, rfl⟩ := List.getElem?_eq_some_iff.1 h
  exact hdistinct.idxOf_getElem n hn

/-- The numbers of codes have room in four bytes. -/
theorem number_lt_size (s : Status) : s.number < UInt32.size := by
  cases s <;> decide

/-- A status is its number, and a number that is none of a status is refused. -/
theorem codec_lawful : Status.codec.Lawful := by
  refine Codec.refine_lawful Codec.uint32_lawful (fun s _ => ?_) fun n s h => ?_
  · rw [UInt32.toNat_ofNat_of_lt' s.number_lt_size, ofNumber?_number]
  · rw [number_of_ofNumber? h, UInt32.ofNat_toNat]

end Status

/-- A key is its 32 bytes, with nothing in front of them. -/
theorem KeyBytes.codec_lawful : KeyBytes.codec.Lawful where
  decode_encode k rest _ := by
    -- A key has thirty-two bytes, so there are enough of them to take.
    have hlength : 32 ≤ (k.bytes ++ rest).length := by
      rw [List.length_append, k.length_eq]
      exact Nat.le_add_right 32 rest.length
    simp only [codec, dif_pos hlength, Option.some.injEq, Prod.mk.injEq]
    exact ⟨by simp only [List.take_left' k.length_eq], List.drop_left' k.length_eq⟩
  fits_of_decode _ _ _ _ := trivial
  eq_of_decode bytes k rest h := by
    simp only [codec] at h
    split at h
    · cases h
      exact (List.take_append_drop 32 bytes).symm
    · cases h

namespace Wire

/-- An instant is its two numbers, valid or not. -/
theorem Timestamp.codec_lawful : Timestamp.codec.Lawful :=
  Codec.iso_lawful (Codec.pair_lawful Codec.int64_lawful Codec.int32_lawful) (fun _ => rfl)
    fun _ => rfl

/-- The name of a transaction is an account with an instant. -/
theorem TransactionId.codec_lawful : TransactionId.codec.Lawful :=
  Codec.iso_lawful (Codec.pair_lawful AccountId.codec_lawful Timestamp.codec_lawful)
    (fun _ => rfl) fun _ => rfl

/-- An amount for an account is three fields in a row. -/
theorem AccountAmount.codec_lawful : AccountAmount.codec.Lawful :=
  Codec.iso_lawful (Codec.pair_lawful AccountId.codec_lawful
    (Codec.pair_lawful Codec.int64_lawful Codec.bool_lawful)) (fun _ => rfl) fun _ => rfl

/-- So is a move of a unique token, with four of them. -/
theorem NftTransfer.codec_lawful : NftTransfer.codec.Lawful :=
  Codec.iso_lawful (Codec.pair_lawful AccountId.codec_lawful
    (Codec.pair_lawful AccountId.codec_lawful
      (Codec.pair_lawful Codec.int64_lawful Codec.bool_lawful))) (fun _ => rfl) fun _ => rfl

/-- The list of a token has two lists within it, each with its length in front. -/
theorem TokenTransferList.codec_lawful : TokenTransferList.codec.Lawful :=
  Codec.iso_lawful (Codec.pair_lawful TokenId.codec_lawful
    (Codec.pair_lawful (Codec.list_lawful AccountAmount.codec_lawful)
      (Codec.pair_lawful (Codec.list_lawful NftTransfer.codec_lawful)
        (Codec.option_lawful Codec.uint32_lawful)))) (fun _ => rfl) fun _ => rfl

/-- A transfer is the list of its amounts and that of its tokens. -/
theorem CryptoTransfer.codec_lawful : CryptoTransfer.codec.Lawful :=
  Codec.iso_lawful (Codec.pair_lawful (Codec.list_lawful AccountAmount.codec_lawful)
    (Codec.list_lawful TokenTransferList.codec_lawful)) (fun _ => rfl) fun _ => rfl

/-- An operation is written with the number of its kind, and there is one kind. -/
theorem Operation.codec_lawful : Operation.codec.Lawful := by
  refine Codec.refine_lawful (Codec.pair_lawful Codec.uint32_lawful CryptoTransfer.codec_lawful)
    (fun _ _ => rfl) fun (number, body) v h => ?_
  dsimp only at h
  split at h
  · cases h
    exact congrArg (·, body) (Eq.symm ‹number = 0›)
  · cases h

/-- A body is its fields in a row; the memo is what may be too long to announce. -/
theorem TransactionBody.codec_lawful : TransactionBody.codec.Lawful :=
  Codec.iso_lawful (Codec.pair_lawful TransactionId.codec_lawful
    (Codec.pair_lawful AccountId.codec_lawful (Codec.pair_lawful Codec.uint64_lawful
      (Codec.pair_lawful Codec.int64_lawful
        (Codec.pair_lawful Codec.text_lawful Operation.codec_lawful))))) (fun _ => rfl) fun _ => rfl

/-- So is a body that is to be scheduled, with fewer fields. -/
theorem ScheduledBody.codec_lawful : ScheduledBody.codec.Lawful :=
  Codec.iso_lawful (Codec.pair_lawful Codec.uint64_lawful
    (Codec.pair_lawful Codec.text_lawful Operation.codec_lawful)) (fun _ => rfl) fun _ => rfl

/-- A signature comes after the key that made it. -/
theorem SignaturePair.codec_lawful : SignaturePair.codec.Lawful :=
  Codec.iso_lawful (Codec.pair_lawful KeyBytes.codec_lawful Codec.bytes_lawful) (fun _ => rfl)
    fun _ => rfl

/-- A signed transaction is the bytes of a body and the list of its signatures. -/
theorem SignedTransaction.codec_lawful : SignedTransaction.codec.Lawful :=
  Codec.iso_lawful (Codec.pair_lawful Codec.bytes_lawful
    (Codec.list_lawful SignaturePair.codec_lawful)) (fun _ => rfl) fun _ => rfl

/-- A query is one of two. -/
theorem Query.codec_lawful : Query.codec.Lawful :=
  Codec.iso_lawful (Codec.alternatives_lawful TransactionId.codec_lawful AccountId.codec_lawful)
    (fun v => by cases v <;> rfl) fun v => by cases v <;> rfl

/-- A request submits, or queries. -/
theorem Request.codec_lawful : Request.codec.Lawful :=
  Codec.iso_lawful (Codec.alternatives_lawful SignedTransaction.codec_lawful Query.codec_lawful)
    (fun v => by cases v <;> rfl) fun v => by cases v <;> rfl

/-- A receipt is its status. -/
theorem Receipt.codec_lawful : Receipt.codec.Lawful :=
  Codec.iso_lawful Status.codec_lawful (fun _ => rfl) fun _ => rfl

/-- What comes with a response is one of three. -/
theorem Payload.codec_lawful : Payload.codec.Lawful :=
  Codec.iso_lawful
    (Codec.threeAlternatives_lawful Codec.unit_lawful Receipt.codec_lawful Codec.uint64_lawful)
    (fun v => by cases v <;> rfl) fun v => by rcases v with _ | _ | _ <;> rfl

/-- A response is a status with what comes with it. -/
theorem Response.codec_lawful : Response.codec.Lawful :=
  Codec.iso_lawful (Codec.pair_lawful Status.codec_lawful Payload.codec_lawful) (fun _ => rfl)
    fun _ => rfl

end Wire

end LedgerClient
