import LedgerClient.Wire.Codec
import Mathlib.Algebra.Group.Nat.Defs

/-!
# `LedgerClient.Proofs.Wire.Codec`: every combinator keeps the law

`Codec.Lawful` is proved here for the numbers, from the two facts that
fixed-width digits and their value determine each other, and then for
each way of making a codec from others. What the parts have to satisfy
is the statement of each lemma; nothing here knows a message type.

* `fixed_lawful`, and from it `uint8_lawful` up to `int64_lawful`.
* `refine_lawful` and `iso_lawful`: a value written as another one.
* `pair_lawful`, `option_lawful`, `list_lawful`, `bytes_lawful`,
  `text_lawful`, `alternatives_lawful`, `threeAlternatives_lawful`.

The reading half of each proof takes the chain of readers apart and
then puts the bytes back together from what each of them consumed.
-/

set_option autoImplicit false

namespace LedgerClient

namespace Bytes

/-- Digits keep the low part of a number that has room in them. -/
theorem littleEndianValue_littleEndian (width n : Nat) :
    littleEndianValue (littleEndian width n) = n % 256 ^ width := by
  induction width generalizing n with
  | zero => simp [littleEndian, littleEndianValue, Nat.mod_one]
  | succ width ih =>
    rw [littleEndian, littleEndianValue, ih, Nat.pow_succ, Nat.mul_comm (256 ^ width), Nat.mod_mul]
    simp

/-- The value of digits has room in them. -/
theorem littleEndianValue_lt (bytes : Bytes) : littleEndianValue bytes < 256 ^ bytes.length := by
  induction bytes with
  | nil => simp [littleEndianValue]
  | cons b rest ih =>
    have hb := b.toNat_lt
    rw [littleEndianValue, List.length_cons, Nat.pow_succ]
    omega

/-- The digits of the value of digits are these digits. -/
theorem littleEndian_littleEndianValue (bytes : Bytes) :
    littleEndian bytes.length (littleEndianValue bytes) = bytes := by
  induction bytes with
  | nil => rfl
  | cons b rest ih =>
    have hb := b.toNat_lt
    -- The lowest digit is below the base, so dividing takes it off and the remainder gives it back.
    have hdiv : (b.toNat + 256 * littleEndianValue rest) / 256 = littleEndianValue rest := by omega
    have hlow : UInt8.ofNat (b.toNat + 256 * littleEndianValue rest) = b := by
      apply UInt8.toNat_inj.1
      rw [UInt8.toNat_ofNat']
      omega
    rw [List.length_cons, littleEndianValue, littleEndian, hdiv, hlow, ih]

/-- A byte string is split where its first part ends. -/
theorem splitAt?_eq_some_iff {n : Nat} {bytes front rest : Bytes} :
    splitAt? n bytes = some (front, rest) ↔ front.length = n ∧ bytes = front ++ rest := by
  unfold splitAt?
  constructor
  · intro h
    split at h
    · next hle =>
      simp only [Option.some.injEq, Prod.mk.injEq] at h
      obtain ⟨rfl, rfl⟩ := h
      exact ⟨List.length_take_of_le hle, (List.take_append_drop n bytes).symm⟩
    · cases h
  · rintro ⟨rfl, rfl⟩
    simp

/-- Reading the UTF-8 form of a text gives the text. -/
theorem text?_ofText (text : String) : text? (ofText text) = some text := by
  rw [text?, ofText, Array.toArray_toList, String.fromUTF8?]
  exact dif_pos text.isValidUTF8

/-- A byte string is only read as a text of which it is the UTF-8 form. -/
theorem ofText_of_text?_eq_some {bytes : Bytes} {text : String} (h : text? bytes = some text) :
    ofText text = bytes := by
  rw [text?, String.fromUTF8?] at h
  split at h
  · cases h
    rfl
  · cases h

end Bytes

namespace Wire.Codec

variable {α β γ : Type}

/-! ### Numbers -/

/-- Numbers of a fixed width are lawful if they are the natural numbers that have room in it. -/
theorem fixed_lawful {width : Nat} {toNat : α → Nat} {ofNat : Nat → α}
    (hroom : ∀ v, toNat v < 256 ^ width) (hleft : ∀ v, ofNat (toNat v) = v)
    (hright : ∀ n, n < 256 ^ width → toNat (ofNat n) = n) :
    (fixed width toNat ofNat).Lawful where
  decode_encode v rest _ := by
    -- The digits are as many as the width, so reading takes exactly them off.
    have hsplit : Bytes.splitAt? width (Bytes.littleEndian width (toNat v) ++ rest) =
        some (Bytes.littleEndian width (toNat v), rest) :=
      Bytes.splitAt?_eq_some_iff.2 ⟨Bytes.length_littleEndian width (toNat v), rfl⟩
    simp only [fixed, hsplit, Option.map_some]
    rw [Bytes.littleEndianValue_littleEndian, Nat.mod_eq_of_lt (hroom v), hleft]
  fits_of_decode _ _ _ _ := trivial
  eq_of_decode bytes v rest h := by
    simp only [fixed, Option.map_eq_some_iff, Prod.mk.injEq, Prod.exists] at h
    -- What was taken off are the digits of the number that was read.
    obtain ⟨digits, rest', hsplit, rfl, rfl⟩ := h
    obtain ⟨rfl, rfl⟩ := Bytes.splitAt?_eq_some_iff.1 hsplit
    simp only [fixed]
    rw [hright _ (Bytes.littleEndianValue_lt digits), Bytes.littleEndian_littleEndianValue]

/-- A number of 8 bits is lawful in its one byte. -/
theorem uint8_lawful : uint8.Lawful :=
  fixed_lawful UInt8.toNat_lt (fun _ => UInt8.ofNat_toNat) fun _ h => UInt8.toNat_ofNat_of_lt h

/-- One of 32 bits is in its four. -/
theorem uint32_lawful : uint32.Lawful :=
  fixed_lawful UInt32.toNat_lt (fun _ => UInt32.ofNat_toNat) fun _ h => UInt32.toNat_ofNat_of_lt h

/-- One of 64 bits is in its eight. -/
theorem uint64_lawful : uint64.Lawful :=
  fixed_lawful UInt64.toNat_lt (fun _ => UInt64.ofNat_toNat) fun _ h => UInt64.toNat_ofNat_of_lt h

/-- A signed number is written as the unsigned one with the same bits. -/
theorem int32_lawful : int32.Lawful := by
  refine fixed_lawful (fun n => n.toUInt32.toNat_lt) (fun n => ?_) fun n h => ?_
  · rw [UInt32.ofNat_toNat, Int32.toInt32_toUInt32]
  · rw [UInt32.toUInt32_toInt32]
    exact UInt32.toNat_ofNat_of_lt h

/-- So is one of 64 bits. -/
theorem int64_lawful : int64.Lawful := by
  refine fixed_lawful (fun n => n.toUInt64.toNat_lt) (fun n => ?_) fun n h => ?_
  · rw [UInt64.ofNat_toNat, Int64.toInt64_toUInt64]
  · rw [UInt64.toUInt64_toInt64]
    exact UInt64.toNat_ofNat_of_lt h

/-! ### Values written as other values -/

/-- A value may be written as another one that reading turns back into it, and into no other. -/
theorem refine_lawful {c : Codec α} (hc : c.Lawful) {project : β → α} {build : α → Option β}
    (hbuild : ∀ v, c.Fits (project v) → build (project v) = some v)
    (hproject : ∀ a v, build a = some v → project v = a) : (c.refine project build).Lawful where
  decode_encode v rest hv := by
    simp only [refine, hc.decode_encode (project v) rest hv, hbuild v hv, Option.bind_eq_bind,
      Option.bind_some, Option.pure_def]
  fits_of_decode bytes v rest h := by
    simp only [refine, Option.bind_eq_bind, Option.bind_eq_some_iff, Option.pure_def,
      Option.some.injEq, Prod.mk.injEq, Prod.exists] at h
    obtain ⟨a, rest', ha, v', hv, rfl, rfl⟩ := h
    show c.Fits (project v')
    rw [hproject a v' hv]
    exact hc.fits_of_decode bytes a rest' ha
  eq_of_decode bytes v rest h := by
    simp only [refine, Option.bind_eq_bind, Option.bind_eq_some_iff, Option.pure_def,
      Option.some.injEq, Prod.mk.injEq, Prod.exists] at h
    -- The value was built from the one that was read, and so it is projected to that one.
    obtain ⟨a, rest', ha, v', hv, rfl, rfl⟩ := h
    show bytes = c.encode (project v') ++ rest'
    rw [hproject a v' hv]
    exact hc.eq_of_decode bytes a rest' ha

/-- A value may be written as another one that determines it and is determined by it. -/
theorem iso_lawful {c : Codec α} (hc : c.Lawful) {project : β → α} {build : α → β}
    (hbuild : ∀ v, build (project v) = v) (hproject : ∀ a, project (build a) = a) :
    (c.iso project build).Lawful := by
  refine refine_lawful hc (fun v _ => congrArg some (hbuild v)) fun a v h => ?_
  cases h
  exact hproject a

/-- A truth value is a byte that is zero or one. -/
theorem bool_lawful : bool.Lawful := by
  refine refine_lawful uint8_lawful (fun v _ => by cases v <;> rfl) fun n v h => ?_
  split at h
  · cases h
    exact Eq.symm ‹n = 0›
  · split at h
    · cases h
      exact Eq.symm ‹n = 1›
    · cases h

/-- Nothing takes no bytes. -/
theorem unit_lawful : unit.Lawful where
  decode_encode _ _ _ := rfl
  fits_of_decode _ _ _ _ := trivial
  eq_of_decode bytes _ rest h := by
    cases h
    rfl

/-! ### Values made of parts -/

/-- What is lawful is so one after the other: the rest of the first is where the second begins. -/
theorem pair_lawful {c : Codec α} {d : Codec β} (hc : c.Lawful) (hd : d.Lawful) :
    (c.pair d).Lawful where
  decode_encode v rest hv := by
    simp only [pair, List.append_assoc, hc.decode_encode v.1 _ hv.1, hd.decode_encode v.2 rest hv.2,
      Option.bind_eq_bind, Option.bind_some, Option.pure_def]
  fits_of_decode bytes v rest h := by
    simp only [pair, Option.bind_eq_bind, Option.bind_eq_some_iff, Option.pure_def,
      Option.some.injEq, Prod.mk.injEq, Prod.exists] at h
    obtain ⟨a, between, ha, b, rest', hb, rfl, rfl⟩ := h
    exact ⟨hc.fits_of_decode _ _ _ ha, hd.fits_of_decode _ _ _ hb⟩
  eq_of_decode bytes v rest h := by
    simp only [pair, Option.bind_eq_bind, Option.bind_eq_some_iff, Option.pure_def,
      Option.some.injEq, Prod.mk.injEq, Prod.exists] at h
    -- What each part consumed is what it writes, and the second started where the first ended.
    obtain ⟨a, between, ha, b, rest', hb, rfl, rfl⟩ := h
    rw [hc.eq_of_decode _ _ _ ha, hd.eq_of_decode _ _ _ hb]
    exact (List.append_assoc _ _ _).symm

/-- What may be missing is lawful behind a byte that says whether it is there. -/
theorem option_lawful {c : Codec α} (hc : c.Lawful) : c.option.Lawful where
  decode_encode v rest hv := by
    cases v with
    | none =>
      simp only [option, bool_lawful.decode_encode false rest trivial, Option.bind_eq_bind,
        Option.bind_some, Bool.false_eq_true, if_false, Option.pure_def]
    | some a =>
      simp only [option, List.append_assoc, bool_lawful.decode_encode true _ trivial,
        hc.decode_encode a rest hv, Option.bind_eq_bind, Option.bind_some, if_true,
        Option.map_some]
  fits_of_decode bytes v rest h := by
    simp only [option, Option.bind_eq_bind, Option.bind_eq_some_iff, Prod.exists] at h
    -- The first byte tells the two cases apart, in reading as in writing.
    obtain ⟨present, between, hpresent, h⟩ := h
    cases present with
    | false =>
      cases h
      trivial
    | true =>
      simp only [if_true, Option.map_eq_some_iff, Prod.mk.injEq, Prod.exists] at h
      obtain ⟨a, rest', ha, rfl, rfl⟩ := h
      exact hc.fits_of_decode _ _ _ ha
  eq_of_decode bytes v rest h := by
    simp only [option, Option.bind_eq_bind, Option.bind_eq_some_iff, Prod.exists] at h
    obtain ⟨present, between, hpresent, h⟩ := h
    rw [bool_lawful.eq_of_decode _ _ _ hpresent]
    cases present with
    | false =>
      cases h
      rfl
    | true =>
      simp only [if_true, Option.map_eq_some_iff, Prod.mk.injEq, Prod.exists] at h
      obtain ⟨a, rest', ha, rfl, rfl⟩ := h
      rw [hc.eq_of_decode _ _ _ ha]
      exact (List.append_assoc _ _ _).symm

/-- As many values are read as were written, if that is how many are asked for. -/
theorem decodeMany_flatMap_encode {c : Codec α} (hc : c.Lawful) (vs : List α) (rest : Bytes)
    (hvs : ∀ v ∈ vs, c.Fits v) :
    decodeMany c vs.length (vs.flatMap c.encode ++ rest) = some (vs, rest) := by
  induction vs with
  | nil => rfl
  | cons v vs ih =>
    obtain ⟨hv, hvs⟩ := List.forall_mem_cons.1 hvs
    simp only [List.length_cons, decodeMany, List.flatMap_cons, List.append_assoc,
      hc.decode_encode v _ hv, ih hvs, Option.bind_eq_bind, Option.bind_some, Option.pure_def]

/-- The values that are read are as many as were asked for, each has a binary form, and these are
what was consumed. -/
theorem of_decodeMany {c : Codec α} (hc : c.Lawful) {count : Nat} {bytes rest : Bytes}
    {vs : List α} (h : decodeMany c count bytes = some (vs, rest)) :
    vs.length = count ∧ (∀ v ∈ vs, c.Fits v) ∧ bytes = vs.flatMap c.encode ++ rest := by
  -- The induction is on the count, and each value leaves the bytes that the next one is read from.
  induction count generalizing bytes vs with
  | zero =>
    cases h
    exact ⟨rfl, nofun, rfl⟩
  | succ count ih =>
    simp only [decodeMany, Option.bind_eq_bind, Option.bind_eq_some_iff, Option.pure_def,
      Option.some.injEq, Prod.mk.injEq, Prod.exists] at h
    obtain ⟨v, between, hv, vs', rest', hvs, rfl, rfl⟩ := h
    obtain ⟨hlength, hfits, hbetween⟩ := ih hvs
    refine ⟨congrArg (· + 1) hlength, ?_, ?_⟩
    · exact List.forall_mem_cons.2 ⟨hc.fits_of_decode _ _ _ hv, hfits⟩
    · rw [hc.eq_of_decode _ _ _ hv, hbetween, List.flatMap_cons, List.append_assoc]

/-- A list is lawful behind its length, which says how many items are to be read. -/
theorem list_lawful {c : Codec α} (hc : c.Lawful) : c.list.Lawful where
  decode_encode vs rest hvs := by
    -- The length fits in eight bytes, so reading it gives back the number of items.
    have hcount : (UInt64.ofNat vs.length).toNat = vs.length := UInt64.toNat_ofNat_of_lt hvs.1
    simp only [list, List.append_assoc, uint64_lawful.decode_encode _ _ trivial,
      Option.bind_eq_bind, Option.bind_some, hcount]
    exact decodeMany_flatMap_encode hc vs rest hvs.2
  fits_of_decode bytes vs rest h := by
    simp only [list, Option.bind_eq_bind, Option.bind_eq_some_iff, Prod.exists] at h
    obtain ⟨count, between, -, hvs⟩ := h
    obtain ⟨hlength, hfits, -⟩ := of_decodeMany hc hvs
    exact ⟨hlength ▸ count.toNat_lt, hfits⟩
  eq_of_decode bytes vs rest h := by
    simp only [list, Option.bind_eq_bind, Option.bind_eq_some_iff, Prod.exists] at h
    obtain ⟨count, between, hcount, hvs⟩ := h
    obtain ⟨hlength, -, hbetween⟩ := of_decodeMany hc hvs
    rw [uint64_lawful.eq_of_decode _ _ _ hcount, hbetween]
    simp only [list, hlength, UInt64.ofNat_toNat, List.append_assoc]

/-- Bytes are lawful behind their length. -/
theorem bytes_lawful : bytes.Lawful where
  decode_encode bs rest hbs := by
    have hcount : (UInt64.ofNat bs.length).toNat = bs.length := UInt64.toNat_ofNat_of_lt hbs
    simp only [bytes, List.append_assoc, uint64_lawful.decode_encode _ _ trivial,
      Option.bind_eq_bind, Option.bind_some, hcount]
    exact Bytes.splitAt?_eq_some_iff.2 ⟨rfl, rfl⟩
  fits_of_decode input bs rest h := by
    simp only [bytes, Option.bind_eq_bind, Option.bind_eq_some_iff, Prod.exists] at h
    obtain ⟨count, between, -, hsplit⟩ := h
    obtain ⟨hlength, -⟩ := Bytes.splitAt?_eq_some_iff.1 hsplit
    show bs.length < UInt64.size
    exact hlength ▸ count.toNat_lt
  eq_of_decode input bs rest h := by
    simp only [bytes, Option.bind_eq_bind, Option.bind_eq_some_iff, Prod.exists] at h
    obtain ⟨count, between, hcount, hsplit⟩ := h
    obtain ⟨hlength, hbetween⟩ := Bytes.splitAt?_eq_some_iff.1 hsplit
    rw [uint64_lawful.eq_of_decode _ _ _ hcount, hbetween]
    simp only [bytes, hlength, UInt64.ofNat_toNat, List.append_assoc]

/-- A text is the bytes that are its own and no others. -/
theorem text_lawful : text.Lawful :=
  refine_lawful bytes_lawful (fun v _ => Bytes.text?_ofText v)
    fun _ _ => Bytes.ofText_of_text?_eq_some

/-! ### Alternatives -/

/-- What is read as one of two alternatives starts with the number of one. -/
theorem of_decode_alternatives {first : Codec α} {second : Codec β} {bytes rest : Bytes}
    {v : α ⊕ β} (h : (alternatives first second).decode bytes = some (v, rest)) :
    (∃ a between, v = .inl a ∧ bytes = uint32.encode 0 ++ between ∧
        first.decode between = some (a, rest)) ∨
      ∃ b between, v = .inr b ∧ bytes = uint32.encode 1 ++ between ∧
        second.decode between = some (b, rest) := by
  simp only [alternatives, Option.bind_eq_bind, Option.bind_eq_some_iff, Prod.exists] at h
  obtain ⟨number, between, hnumber, h⟩ := h
  -- The number was written as it is read, and only two numbers have a branch.
  rw [uint32_lawful.eq_of_decode _ _ _ hnumber]
  split at h
  · subst number
    simp only [Option.map_eq_some_iff, Prod.mk.injEq, Prod.exists] at h
    obtain ⟨a, rest', ha, rfl, rfl⟩ := h
    exact .inl ⟨a, between, rfl, rfl, ha⟩
  · split at h
    · subst number
      simp only [Option.map_eq_some_iff, Prod.mk.injEq, Prod.exists] at h
      obtain ⟨b, rest', hb, rfl, rfl⟩ := h
      exact .inr ⟨b, between, rfl, rfl, hb⟩
    · cases h

/-- One of two is lawful behind its number, which tells them apart. -/
theorem alternatives_lawful {first : Codec α} {second : Codec β} (hfirst : first.Lawful)
    (hsecond : second.Lawful) : (alternatives first second).Lawful where
  decode_encode v rest hv := by
    have h10 : (1 : UInt32) ≠ 0 := by decide
    cases v with
    | inl a =>
      simp only [alternatives, List.append_assoc, uint32_lawful.decode_encode _ _ trivial,
        Option.bind_eq_bind, Option.bind_some, if_true, hfirst.decode_encode a rest hv,
        Option.map_some]
    | inr b =>
      simp only [alternatives, List.append_assoc, uint32_lawful.decode_encode _ _ trivial,
        Option.bind_eq_bind, Option.bind_some, h10, if_false, if_true,
        hsecond.decode_encode b rest hv, Option.map_some]
  fits_of_decode bytes v rest h := by
    rcases of_decode_alternatives h with ⟨a, between, rfl, -, ha⟩ | ⟨b, between, rfl, -, hb⟩
    · exact hfirst.fits_of_decode _ _ _ ha
    · exact hsecond.fits_of_decode _ _ _ hb
  eq_of_decode bytes v rest h := by
    rcases of_decode_alternatives h with ⟨a, between, rfl, rfl, ha⟩ | ⟨b, between, rfl, rfl, hb⟩
    · rw [hfirst.eq_of_decode _ _ _ ha]
      exact (List.append_assoc _ _ _).symm
    · rw [hsecond.eq_of_decode _ _ _ hb]
      exact (List.append_assoc _ _ _).symm

/-- What is read as one of three alternatives starts with the number of one. -/
theorem of_decode_threeAlternatives {first : Codec α} {second : Codec β} {third : Codec γ}
    {bytes rest : Bytes} {v : α ⊕ β ⊕ γ}
    (h : (threeAlternatives first second third).decode bytes = some (v, rest)) :
    (∃ a between, v = .inl a ∧ bytes = uint32.encode 0 ++ between ∧
        first.decode between = some (a, rest)) ∨
      (∃ b between, v = .inr (.inl b) ∧ bytes = uint32.encode 1 ++ between ∧
        second.decode between = some (b, rest)) ∨
      ∃ c between, v = .inr (.inr c) ∧ bytes = uint32.encode 2 ++ between ∧
        third.decode between = some (c, rest) := by
  simp only [threeAlternatives, Option.bind_eq_bind, Option.bind_eq_some_iff, Prod.exists] at h
  obtain ⟨number, between, hnumber, h⟩ := h
  -- As with two alternatives, each number has its own branch and no other one succeeds.
  rw [uint32_lawful.eq_of_decode _ _ _ hnumber]
  split at h
  · subst number
    simp only [Option.map_eq_some_iff, Prod.mk.injEq, Prod.exists] at h
    obtain ⟨a, rest', ha, rfl, rfl⟩ := h
    exact .inl ⟨a, between, rfl, rfl, ha⟩
  · split at h
    · subst number
      simp only [Option.map_eq_some_iff, Prod.mk.injEq, Prod.exists] at h
      obtain ⟨b, rest', hb, rfl, rfl⟩ := h
      exact .inr (.inl ⟨b, between, rfl, rfl, hb⟩)
    · split at h
      · subst number
        simp only [Option.map_eq_some_iff, Prod.mk.injEq, Prod.exists] at h
        obtain ⟨c, rest', hc, rfl, rfl⟩ := h
        exact .inr (.inr ⟨c, between, rfl, rfl, hc⟩)
      · cases h

/-- So is one of three. -/
theorem threeAlternatives_lawful {first : Codec α} {second : Codec β} {third : Codec γ}
    (hfirst : first.Lawful) (hsecond : second.Lawful) (hthird : third.Lawful) :
    (threeAlternatives first second third).Lawful where
  decode_encode v rest hv := by
    -- The numbers are different, so writing one selects its branch in reading.
    have h10 : (1 : UInt32) ≠ 0 := by decide
    have h20 : (2 : UInt32) ≠ 0 := by decide
    have h21 : (2 : UInt32) ≠ 1 := by decide
    rcases v with a | b | c
    · simp only [threeAlternatives, List.append_assoc, uint32_lawful.decode_encode _ _ trivial,
        Option.bind_eq_bind, Option.bind_some, if_true, hfirst.decode_encode a rest hv,
        Option.map_some]
    · simp only [threeAlternatives, List.append_assoc, uint32_lawful.decode_encode _ _ trivial,
        Option.bind_eq_bind, Option.bind_some, h10, if_false, if_true,
        hsecond.decode_encode b rest hv, Option.map_some]
    · simp only [threeAlternatives, List.append_assoc, uint32_lawful.decode_encode _ _ trivial,
        Option.bind_eq_bind, Option.bind_some, h20, h21, if_false, if_true,
        hthird.decode_encode c rest hv, Option.map_some]
  fits_of_decode bytes v rest h := by
    rcases of_decode_threeAlternatives h with
      ⟨a, between, rfl, -, ha⟩ | ⟨b, between, rfl, -, hb⟩ | ⟨c, between, rfl, -, hc⟩
    · exact hfirst.fits_of_decode _ _ _ ha
    · exact hsecond.fits_of_decode _ _ _ hb
    · exact hthird.fits_of_decode _ _ _ hc
  eq_of_decode bytes v rest h := by
    rcases of_decode_threeAlternatives h with
      ⟨a, between, rfl, rfl, ha⟩ | ⟨b, between, rfl, rfl, hb⟩ | ⟨c, between, rfl, rfl, hc⟩
    · rw [hfirst.eq_of_decode _ _ _ ha]
      exact (List.append_assoc _ _ _).symm
    · rw [hsecond.eq_of_decode _ _ _ hb]
      exact (List.append_assoc _ _ _).symm
    · rw [hthird.eq_of_decode _ _ _ hc]
      exact (List.append_assoc _ _ _).symm

/-- A lawful codec reads a written value back, whatever follows it. -/
theorem Lawful.decode?_append {c : Codec α} (hc : c.Lawful) {v : α} (hv : c.Fits v)
    (rest : Bytes) : c.decode? (c.encode v ++ rest) = some v := by
  rw [decode?, hc.decode_encode v rest hv]
  rfl

/-- A lawful codec reads a written value back. -/
theorem Lawful.decode?_encode {c : Codec α} (hc : c.Lawful) {v : α} (hv : c.Fits v) :
    c.decode? (c.encode v) = some v := by
  simpa only [List.append_nil] using hc.decode?_append hv []

end Wire.Codec

end LedgerClient
