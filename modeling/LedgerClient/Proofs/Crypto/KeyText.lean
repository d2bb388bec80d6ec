import LedgerClient.Crypto.Key
import LedgerClient.Proofs.Text.Cuts
import LedgerClient.Proofs.Text.Hexadecimal

/-!
# `LedgerClient.Proofs.Crypto.KeyText`: which texts are keys

The reader of keys goes by the length of what is left of a text, and says
nothing about how the text is made up. `KeyBytes.Spelled` says that: a key
is spelled by its 64 digits, alone or behind the header of its kind, with
or without one `0x` in front of it and white space around it.

`KeyBytes.parse?_eq_some_iff` is the bridge. What is left of a text without
white space and `0x` (`stripped`) is the only thing of digits alone that the
text can be a paste of (`Pasted.stripped_eq`): its ends are no white space,
and it does not begin with another `0x`, since an `x` is no digit. Of the two
ways to spell a key only the one without the header leaves 64 digits, so it is
enough to look at the length.

That a text is never two keys is no matter of the reader. Of two headers of
digits, whatever they are, a text can only have one, because the last 64
digits are those of the key (`KeyBytes.SpelledBehind.unique`).
-/

set_option autoImplicit false

namespace LedgerClient

namespace Text

/-! ### Pasted texts -/

/-- What may stand in front of hexadecimal digits. -/
inductive Mark where
  | none
  | zeroX
deriving DecidableEq

/-- How a mark is written. -/
def Mark.text : Mark → List Char
  | none => []
  | zeroX => ['0', 'x']

/-- The text is another one as it comes out of a paste: with white space around it, if any, and
perhaps a mark in front of it. -/
def Pasted (core cs : List Char) : Prop :=
  ∃ (before : List Char) (mark : Mark) (after : List Char),
    Blank before ∧ Blank after ∧ cs = before ++ (mark.text ++ core) ++ after

/-- What is left of a text without white space around it and one mark in front. -/
def stripped (cs : List Char) : List Char :=
  (dropLeading? Mark.zeroX.text (trim cs)).getD (trim cs)

/-- Every text is a paste of what is left of it. -/
theorem pasted_stripped (cs : List Char) : Pasted (stripped cs) cs := by
  obtain ⟨⟨before, after, hbefore, hafter, hcs⟩, -⟩ := trim_eq_iff.1 (rfl : trim cs = trim cs)
  rw [stripped]
  cases hmark : dropLeading? Mark.zeroX.text (trim cs) with
  | none => exact ⟨before, .none, after, hbefore, hafter, hcs⟩
  | some rest =>
    rw [dropLeading?_eq_some_iff] at hmark
    refine ⟨before, .zeroX, after, hbefore, hafter, ?_⟩
    rw [Option.getD_some, ← hmark]
    exact hcs

/-- Digits in front of which there may be a mark have no white space at their ends. -/
theorem trimmed_mark_append {core : List Char} (hcore : Hex.Digits core) (mark : Mark) :
    Trimmed (mark.text ++ core) := by
  refine Trimmed.of_all ?_
  intro c hc
  rcases List.mem_append.1 hc with hc | hc
  · have hall : ∀ mark : Mark, mark.text.all (fun c => !isBlank c) = true := by
      intro mark
      cases mark <;> decide
    simpa using List.all_eq_true.1 (hall mark) c hc
  · obtain ⟨n, hn⟩ := hcore c hc
    exact hn.plain.2.1

/-- Digits do not begin with a mark. -/
theorem dropLeading?_zeroX_of_digits {core : List Char} (hcore : Hex.Digits core) :
    dropLeading? Mark.zeroX.text core = none := by
  rw [Option.eq_none_iff_forall_ne_some]
  intro rest hrest
  rw [dropLeading?_eq_some_iff] at hrest
  -- The second character of the mark would be a digit.
  obtain ⟨n, hx⟩ := hcore 'x' (by simp [hrest, Mark.text])
  exact hx.plain.2.2 rfl

/-- If a text is a paste of digits, these are what is left of it. -/
theorem Pasted.stripped_eq {core cs : List Char} (h : Pasted core cs) (hcore : Hex.Digits core) :
    stripped cs = core := by
  obtain ⟨before, mark, after, hbefore, hafter, rfl⟩ := h
  rw [stripped, trim_append hbefore (trimmed_mark_append hcore mark) hafter]
  cases mark with
  | none =>
    show (dropLeading? Mark.zeroX.text core).getD core = core
    rw [dropLeading?_zeroX_of_digits hcore, Option.getD_none]
  | zeroX =>
    rw [dropLeading?_eq_some_iff.2 rfl, Option.getD_some]

end Text

namespace KeyBytes

/-! ### Spelled keys -/

/-- The text spells the key behind a header: it is a paste of the header and the digits of the
key. -/
def SpelledBehind (header : List Char) (key : KeyBytes) (cs : List Char) : Prop :=
  ∃ digits, digits.length = 64 ∧ Hex.Denotes digits key.bytes ∧ Text.Pasted (header ++ digits) cs

/-- The text spells the key, without a header or behind the one of its kind. -/
def Spelled (header : List Char) (key : KeyBytes) (cs : List Char) : Prop :=
  SpelledBehind [] key cs ∨ SpelledBehind header key cs

variable {header header' cs : List Char} {key key' : KeyBytes}

/-- The digits of a key are two for each of its bytes. -/
theorem length_of_denotes {digits : List Char} (h : Hex.Denotes digits key.bytes) :
    digits.length = 64 := by
  rw [h.length_eq, key.length_eq]

/-- What is written for a key, behind a header, spells it when it is pasted. -/
theorem spelledBehind_encode (h : Text.Pasted (header ++ (Hex.encode key.bytes).toList) cs) :
    SpelledBehind header key cs := by
  have hdenotes := Hex.denotes_encode key.bytes
  exact ⟨_, length_of_denotes hdenotes, hdenotes, h⟩

/-- Both texts of a key spell it when they are pasted. -/
theorem spelled_of_pasted (h : Text.Pasted (Hex.encode key.bytes).toList cs ∨
    Text.Pasted (String.ofList header ++ Hex.encode key.bytes).toList cs) :
    Spelled header key cs := by
  rcases h with h | h
  · exact .inl (spelledBehind_encode h)
  · rw [String.toList_append, String.toList_ofList] at h
    exact .inr (spelledBehind_encode h)

/-- No text spells two keys, nor one key behind two headers. -/
theorem SpelledBehind.unique (hheader : Hex.Digits header) (hheader' : Hex.Digits header')
    (h : SpelledBehind header key cs) (h' : SpelledBehind header' key' cs) :
    header = header' ∧ key = key' := by
  obtain ⟨digits, hlength, hdenotes, hpasted⟩ := h
  obtain ⟨digits', hlength', hdenotes', hpasted'⟩ := h'
  have hcores : header ++ digits = header' ++ digits' := by
    rw [← hpasted.stripped_eq (hheader.append hdenotes.digits),
      ← hpasted'.stripped_eq (hheader'.append hdenotes'.digits)]
  -- Both ends are of 64 digits, so the cut is at the same place.
  obtain ⟨rfl, rfl⟩ := List.append_inj' hcores (by rw [hlength, hlength'])
  refine ⟨rfl, ?_⟩
  -- The same digits are left, and they denote the bytes of one key.
  rw [← Hex.decodeChars_eq_some_iff] at hdenotes hdenotes'
  exact eq_of_bytes_eq (Option.some.inj (hdenotes.symm.trans hdenotes'))

/-- A text that spells a key behind a header spells none behind another one, nor without. -/
theorem SpelledBehind.not_spelled (hheader : Hex.Digits header) (hheader' : Hex.Digits header')
    (h : SpelledBehind header key cs) (hne : header ≠ []) (hother : header ≠ header') :
    ¬ Spelled header' key' cs := by
  rintro (hbare | hbehind)
  · have hnil : Hex.Digits [] := by decide
    exact hne (h.unique hheader hnil hbare).1
  · exact hother (h.unique hheader hheader' hbehind).1

/-- Thirty-two bytes are those of a key. -/
theorem ofBytes?_eq_some_iff {bytes : Bytes} : ofBytes? bytes = some key ↔ bytes = key.bytes := by
  constructor
  · intro h
    rw [ofBytes?] at h
    split at h
    next => cases h; rfl
    next => cases h
  · rintro rfl
    rw [ofBytes?, dif_pos key.length_eq]

/-- The digits of a text are what is left of it, or what follows the header there. -/
theorem keyDigits?_eq (header cs : List Char) :
    keyDigits? header cs =
      if (Bytes.ofText (String.ofList (Text.stripped cs))).length = 64 then some (Text.stripped cs)
      else Text.dropLeading? header (Text.stripped cs) := rfl

/-- The texts that are read are those that spell a key. -/
theorem parse?_eq_some_iff (hheader : Hex.Digits header) (hne : header ≠ []) {text : String} :
    parse? header text = some key ↔ Spelled header key text.toList := by
  have hparse : parse? header text = some key ↔
      ∃ digits, keyDigits? header text.toList = some digits ∧ Hex.Denotes digits key.bytes := by
    simp [parse?, Option.bind_eq_some_iff, ofBytes?_eq_some_iff, Hex.decodeChars_eq_some_iff]
  rw [hparse, keyDigits?_eq]
  constructor
  · -- What was read is what is left of the text, whole or behind the header.
    rintro ⟨digits, hdigits, hdenotes⟩
    have hpasted := Text.pasted_stripped text.toList
    have hlength := length_of_denotes hdenotes
    split at hdigits
    next =>
      cases hdigits
      exact .inl ⟨_, hlength, hdenotes, hpasted⟩
    next =>
      rw [Text.dropLeading?_eq_some_iff] at hdigits
      rw [hdigits] at hpasted
      exact .inr ⟨digits, hlength, hdenotes, hpasted⟩
  · -- The length tells the two ways to spell a key apart, and leads the reader to the right one.
    rintro (⟨digits, hlength, hdenotes, hspelled⟩ | ⟨digits, hlength, hdenotes, hspelled⟩)
    · have hleft : Text.stripped text.toList = digits := hspelled.stripped_eq hdenotes.digits
      refine ⟨digits, ?_, hdenotes⟩
      rw [hleft, hdenotes.digits.length_ofText, if_pos hlength]
    · have hdigits := hheader.append hdenotes.digits
      have hpos := List.length_pos_iff.2 hne
      have hlong : (header ++ digits).length ≠ 64 := by
        rw [List.length_append]
        omega
      refine ⟨digits, ?_, hdenotes⟩
      rw [hspelled.stripped_eq hdigits, hdigits.length_ofText, if_neg hlong,
        Text.dropLeading?_eq_some_iff]

end KeyBytes

/-! ### The two kinds -/

/-- The header of a private key is text in digits, so a key behind it is too. -/
theorem digits_privateKeyHeader : Hex.Digits privateKeyHeader := by
  decide

/-- So is that of a public key. -/
theorem digits_publicKeyHeader : Hex.Digits publicKeyHeader := by
  decide

/-- The texts that the reader of private keys takes are those that spell a key. -/
theorem PrivateKey.read_iff {text : String} {key : KeyBytes} :
    KeyBytes.parse? privateKeyHeader text = some key ↔
      KeyBytes.Spelled privateKeyHeader key text.toList :=
  KeyBytes.parse?_eq_some_iff digits_privateKeyHeader (by decide)

/-- The texts that the reader of public keys takes, before it looks for a point, are those that
spell a key. -/
theorem PublicKey.read_iff {text : String} {key : KeyBytes} :
    KeyBytes.parse? publicKeyHeader text = some key ↔
      KeyBytes.Spelled publicKeyHeader key text.toList :=
  KeyBytes.parse?_eq_some_iff digits_publicKeyHeader (by decide)

/-- The texts of private keys are those that spell them. -/
theorem PrivateKey.parse_eq_ok_iff {text : String} {k : PrivateKey} :
    PrivateKey.parse text = .ok k ↔ KeyBytes.Spelled privateKeyHeader k.secret text.toList := by
  rw [← PrivateKey.read_iff, PrivateKey.parse]
  obtain ⟨secret⟩ := k
  cases KeyBytes.parse? privateKeyHeader text with
  | none => simp
  | some key => simp

/-- Any other text is refused, without a word about what is wrong with it. -/
theorem PrivateKey.parse_eq_error_iff {text : String} {e : Error} :
    PrivateKey.parse text = .error e ↔ e = .key .invalidPrivateKey ∧
      ∀ key, ¬ KeyBytes.Spelled privateKeyHeader key text.toList := by
  simp only [← PrivateKey.read_iff, PrivateKey.parse]
  cases KeyBytes.parse? privateKeyHeader text with
  | none =>
    -- There is no key in the text, so nothing is left to decide but the error.
    constructor
    · intro h
      cases h
      simp
    · rintro ⟨rfl, -⟩
      rfl
  | some key => simp

/-- The texts of public keys are those that spell a point. -/
theorem PublicKey.parse_eq_ok_iff {text : String} {k : PublicKey} :
    PublicKey.parse text = .ok k ↔ KeyBytes.Spelled publicKeyHeader k.key text.toList ∧
      Crypto.Ed25519.isPoint k.bytes = true := by
  rw [← PublicKey.read_iff, PublicKey.parse]
  obtain ⟨key⟩ := k
  cases KeyBytes.parse? publicKeyHeader text with
  | none => simp
  | some key' =>
    show PublicKey.ofKeyBytes key' = .ok ⟨key⟩ ↔
      some key' = some key ∧ Crypto.Ed25519.isPoint key.bytes = true
    rw [PublicKey.ofKeyBytes]
    -- The bytes are checked, and whatever is accepted consists of them.
    by_cases hkey : key' = key
    · subst hkey
      split
      next hpoint => simp [hpoint]
      next hpoint => simp [hpoint]
    · split
      next => simp [hkey]
      next => simp [hkey]

/-- Any other text is refused, without a word about what is wrong with it. -/
theorem PublicKey.parse_eq_error_iff {text : String} {e : Error} :
    PublicKey.parse text = .error e ↔ e = .key .invalidPublicKey ∧
      ∀ key, KeyBytes.Spelled publicKeyHeader key text.toList →
        Crypto.Ed25519.isPoint key.bytes = false := by
  simp only [← PublicKey.read_iff, PublicKey.parse]
  cases KeyBytes.parse? publicKeyHeader text with
  | none =>
    constructor
    · intro h
      cases h
      simp
    · rintro ⟨rfl, -⟩
      rfl
  | some key =>
    show PublicKey.ofKeyBytes key = .error e ↔ _
    rw [PublicKey.ofKeyBytes]
    -- A key may be spelled that is no point, and is refused in the same way.
    split
    next hpoint => simp [hpoint]
    next hpoint =>
      constructor
      · intro h
        cases h
        simp [hpoint]
      · rintro ⟨rfl, -⟩
        rfl

/-- The texts that are read as keys, and nothing else about them matters. A private key is read
exactly from the texts that spell it, and a public key from those of its texts if its bytes are a
point; any other text is refused with the one error of its kind. What is written for a key is one of
its texts, with or without the header, however it is pasted. No text spells two keys or has two
headers, so a text behind the header of the other kind, or any other than its own, is refused. -/
theorem key_text_exact :
    (∀ (text : String) (k : PrivateKey), PrivateKey.parse text = .ok k ↔
      KeyBytes.Spelled privateKeyHeader k.secret text.toList) ∧
    (∀ (text : String) (k : PublicKey), PublicKey.parse text = .ok k ↔
      KeyBytes.Spelled publicKeyHeader k.key text.toList ∧
        Crypto.Ed25519.isPoint k.bytes = true) ∧
    (∀ (text : String) (e : Error), PrivateKey.parse text = .error e ↔
      e = .key .invalidPrivateKey ∧
        ∀ key, ¬ KeyBytes.Spelled privateKeyHeader key text.toList) ∧
    (∀ (text : String) (e : Error), PublicKey.parse text = .error e ↔
      e = .key .invalidPublicKey ∧
        ∀ key, KeyBytes.Spelled publicKeyHeader key text.toList →
          Crypto.Ed25519.isPoint key.bytes = false) ∧
    (∀ (k : PrivateKey) (text : String),
      Text.Pasted k.rawText.toList text.toList ∨ Text.Pasted k.text.toList text.toList →
        PrivateKey.parse text = .ok k) ∧
    (∀ (k : PublicKey) (text : String),
      Text.Pasted k.rawText.toList text.toList ∨ Text.Pasted k.text.toList text.toList →
        (PublicKey.parse text = .ok k ↔ Crypto.Ed25519.isPoint k.bytes = true)) ∧
    (∀ (cs header header' : List Char) (key key' : KeyBytes),
      Hex.Digits header → Hex.Digits header' → KeyBytes.SpelledBehind header key cs →
        KeyBytes.SpelledBehind header' key' cs → header = header' ∧ key = key') ∧
    ∀ (text : String) (header : List Char) (key : KeyBytes),
      Hex.Digits header → header ≠ [] → KeyBytes.SpelledBehind header key text.toList →
        (header ≠ privateKeyHeader →
          PrivateKey.parse text = .error (.key .invalidPrivateKey)) ∧
        (header ≠ publicKeyHeader →
          PublicKey.parse text = .error (.key .invalidPublicKey)) := by
  refine ⟨fun _ _ => PrivateKey.parse_eq_ok_iff, fun _ _ => PublicKey.parse_eq_ok_iff,
    fun _ _ => PrivateKey.parse_eq_error_iff, fun _ _ => PublicKey.parse_eq_error_iff,
    ?_, ?_, ?_, ?_⟩
  · -- What is written for a key is a text of it, with or without the header.
    intro k text hpasted
    rw [PrivateKey.parse_eq_ok_iff]
    exact KeyBytes.spelled_of_pasted hpasted
  · intro k text hpasted
    have hspelled : KeyBytes.Spelled publicKeyHeader k.key text.toList :=
      KeyBytes.spelled_of_pasted hpasted
    simp [PublicKey.parse_eq_ok_iff, hspelled]
  · intro cs header header' key key' hheader hheader' h h'
    exact h.unique hheader hheader' h'
  · -- A text has one header, so it is not read behind another one.
    intro text header key hheader hne h
    constructor
    · intro hother
      rw [PrivateKey.parse_eq_error_iff]
      refine ⟨rfl, ?_⟩
      intro key'
      exact h.not_spelled hheader digits_privateKeyHeader hne hother
    · intro hother
      rw [PublicKey.parse_eq_error_iff]
      refine ⟨rfl, ?_⟩
      intro key' hspelled
      exact absurd hspelled (h.not_spelled hheader digits_publicKeyHeader hne hother)

/-- A private key of which the digits have letters among them. -/
def letteredKey : PrivateKey := ⟨⟨List.replicate 32 0xaf, List.length_replicate⟩⟩

/-- Its text behind a mark, with a no-break space before and a line end after it. -/
def pastedText : String := "\u00a00x" ++ letteredKey.text ++ "\r\n"

/-- The key is read from it, and no public key is. -/
theorem key_text_exact_pasted :
    PrivateKey.parse pastedText = .ok letteredKey ∧
      PublicKey.parse pastedText = .error (.key .invalidPublicKey) := by
  have hpasted : Text.Pasted letteredKey.text.toList pastedText.toList := by
    refine ⟨['\u00a0'], .zeroX, ['\r', '\n'], by decide, by decide, ?_⟩
    rw [pastedText, String.toList_append, String.toList_append]
    rfl
  obtain ⟨-, -, -, -, hread, -, -, hrefused⟩ := key_text_exact
  refine ⟨hread letteredKey pastedText (.inr hpasted), ?_⟩
  -- The text is one of the key behind its header, and so it is none of a public key.
  rw [PrivateKey.text, String.toList_append, String.toList_ofList] at hpasted
  have hspelled : KeyBytes.SpelledBehind privateKeyHeader letteredKey.secret pastedText.toList :=
    KeyBytes.spelledBehind_encode hpasted
  exact (hrefused pastedText _ _ digits_privateKeyHeader (by decide) hspelled).2 (by decide)

end LedgerClient
