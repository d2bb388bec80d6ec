/-!
# `LedgerClient.Bytes`: byte strings and their two texts

Everything that is signed, hashed or sent is a finite list of bytes.
Lists are used, not arrays, because every law about a message is a
law about concatenation: an encoded value followed by a rest, a frame
followed by a stream.

Numbers travel with a fixed width, so `littleEndian width n` always
has `width` bytes, whatever `n` is: the digits above the width are
dropped. `Hex` is the text in which people read bytes.
-/

set_option autoImplicit false

namespace LedgerClient

/-- A byte string. -/
abbrev Bytes := List UInt8

namespace Bytes

/-- The `width` low base-256 digits of a number, lowest first. -/
def littleEndian : Nat → Nat → Bytes
  | 0, _ => []
  | width + 1, n => UInt8.ofNat n :: littleEndian width (n / 256)

/-- The number whose base-256 digits are given, lowest first. -/
def littleEndianValue : Bytes → Nat
  | [] => 0
  | b :: rest => b.toNat + 256 * littleEndianValue rest

/-- The `width` low base-256 digits of a number, highest first. -/
def bigEndian (width n : Nat) : Bytes :=
  (littleEndian width n).reverse

/-- The number whose base-256 digits are given, highest first. -/
def bigEndianValue (bytes : Bytes) : Nat :=
  littleEndianValue bytes.reverse

/-- The first `n` bytes and what follows them, when there are that many. -/
def splitAt? (n : Nat) (bytes : Bytes) : Option (Bytes × Bytes) :=
  if n ≤ bytes.length then some (bytes.take n, bytes.drop n) else none

/-- The UTF-8 form of a text. -/
def ofText (text : String) : Bytes :=
  text.toUTF8.data.toList

/-- The text whose UTF-8 form is given; `none` for bytes that are not UTF-8. -/
def text? (bytes : Bytes) : Option String :=
  String.fromUTF8? ⟨bytes.toArray⟩

/-- A number that is written takes as many bytes as it was given, whatever its size. -/
@[simp] theorem length_littleEndian (width n : Nat) :
    (littleEndian width n).length = width := by
  induction width generalizing n with
  | zero => rfl
  | succ width ih => simp [littleEndian, ih]

/-- The order of the bytes does not matter for their number. -/
@[simp] theorem length_bigEndian (width n : Nat) : (bigEndian width n).length = width := by
  simp [bigEndian]

/-- The UTF-8 form of a text has as many bytes as the text counts. -/
theorem length_ofText (text : String) : (ofText text).length = text.utf8ByteSize :=
  rfl

end Bytes

namespace Hex

/-- The lower-case hexadecimal digit of a number below sixteen. -/
def digit (n : Nat) : Char :=
  if n < 10 then Char.ofNat (48 + n) else Char.ofNat (87 + n)

/-- The value of a hexadecimal digit of either case. -/
def digitValue? (c : Char) : Option Nat :=
  if '0' ≤ c ∧ c ≤ '9' then some (c.toNat - 48)
  else if 'a' ≤ c ∧ c ≤ 'f' then some (c.toNat - 87)
  else if 'A' ≤ c ∧ c ≤ 'F' then some (c.toNat - 55)
  else none

/-- Two digits for each byte, the high half first. -/
def encode (bytes : Bytes) : String :=
  String.ofList (bytes.flatMap fun b => [digit (b.toNat / 16), digit (b.toNat % 16)])

/-- The bytes that the characters denote, two for each byte. -/
def decodeChars : List Char → Option Bytes
  | [] => some []
  | [_] => none
  | high :: low :: rest => do
    let h ← digitValue? high
    let l ← digitValue? low
    let bytes ← decodeChars rest
    return UInt8.ofNat (16 * h + l) :: bytes

/-- The bytes that a text denotes; digits of either case. -/
def decode? (text : String) : Option Bytes :=
  decodeChars text.toList

end Hex

end LedgerClient
