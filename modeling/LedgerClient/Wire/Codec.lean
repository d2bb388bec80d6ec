import LedgerClient.Bytes

/-!
# `LedgerClient.Wire.Codec`: the binary form of values

A `Codec` writes a value as bytes and reads it from the front of a
byte string, giving back what follows. Numbers have a fixed width and
go lowest byte first, a list or a text announces its length in eight
bytes, an optional value is a byte 0 or a byte 1 and the value, and
the parts of a structure follow each other with nothing in between.

A length has eight bytes, so a list or a text of `2 ^ 64` elements has
no binary form. `Fits` says which values have one; every value that a
machine can hold does.

A codec is `Lawful` when reading gives back exactly what was written,
whatever follows, and accepts nothing else. The two halves together
say that the writing of a value is determined by the value, that no
two values share it, and that none is the beginning of another's.
Each combinator keeps the law, so a message type is lawful because
its parts are.
-/

set_option autoImplicit false

namespace LedgerClient.Wire

/-- How values of a type are written as bytes and read back. -/
structure Codec (α : Type) where
  /-- The bytes of a value. -/
  encode : α → Bytes
  /-- The value in front of a byte string, and what follows it. -/
  decode : Bytes → Option (α × Bytes)
  /-- Whether every length in the value can be announced. -/
  Fits : α → Prop := fun _ => True

namespace Codec

variable {α β γ : Type}

/-- Reading accepts exactly what writing produces, and gives it back. -/
structure Lawful (c : Codec α) : Prop where
  decode_encode : ∀ v rest, c.Fits v → c.decode (c.encode v ++ rest) = some (v, rest)
  fits_of_decode : ∀ bytes v rest, c.decode bytes = some (v, rest) → c.Fits v
  eq_of_decode : ∀ bytes v rest, c.decode bytes = some (v, rest) → bytes = c.encode v ++ rest

/-- A number of `width` bytes. -/
def fixed (width : Nat) (toNat : α → Nat) (ofNat : Nat → α) : Codec α where
  encode v := Bytes.littleEndian width (toNat v)
  decode bytes := (Bytes.splitAt? width bytes).map fun (digits, rest) =>
    (ofNat (Bytes.littleEndianValue digits), rest)

/-- One byte. -/
def uint8 : Codec UInt8 := fixed 1 UInt8.toNat UInt8.ofNat

/-- Four bytes, unsigned. -/
def uint32 : Codec UInt32 := fixed 4 UInt32.toNat UInt32.ofNat

/-- Eight bytes, unsigned. -/
def uint64 : Codec UInt64 := fixed 8 UInt64.toNat UInt64.ofNat

/-- Four bytes, signed in two's complement. -/
def int32 : Codec Int32 :=
  fixed 4 (fun n => n.toUInt32.toNat) fun n => (UInt32.ofNat n).toInt32

/-- Eight bytes, signed in two's complement. -/
def int64 : Codec Int64 :=
  fixed 8 (fun n => n.toUInt64.toNat) fun n => (UInt64.ofNat n).toInt64

/-- A value written as another one, where reading may refuse what writing never produces. -/
def refine (c : Codec α) (project : β → α) (build : α → Option β) : Codec β where
  encode v := c.encode (project v)
  decode bytes := do
    let (a, rest) ← c.decode bytes
    let v ← build a
    return (v, rest)
  Fits v := c.Fits (project v)

/-- A value written as another one that determines it. -/
def iso (c : Codec α) (project : β → α) (build : α → β) : Codec β :=
  c.refine project fun a => some (build a)

/-- Two values, one after the other. -/
def pair (c : Codec α) (d : Codec β) : Codec (α × β) where
  encode v := c.encode v.1 ++ d.encode v.2
  decode bytes := do
    let (a, rest) ← c.decode bytes
    let (b, rest) ← d.decode rest
    return ((a, b), rest)
  Fits v := c.Fits v.1 ∧ d.Fits v.2

/-- The truth values are the bytes 0 and 1. -/
def bool : Codec Bool :=
  uint8.refine (fun b => if b then 1 else 0) fun n =>
    if n = 0 then some false else if n = 1 then some true else none

/-- Nothing, in no bytes. -/
def unit : Codec Unit where
  encode _ := []
  decode bytes := some ((), bytes)

/-- A byte 0, or a byte 1 and the value. -/
def option (c : Codec α) : Codec (Option α) where
  encode
    | none => bool.encode false
    | some v => bool.encode true ++ c.encode v
  decode bytes := do
    let (present, rest) ← bool.decode bytes
    if present then (c.decode rest).map fun (v, rest) => (some v, rest)
    else return (none, rest)
  Fits
    | none => True
    | some v => c.Fits v

/-- `count` values one after the other. Reading stops at the first that is not there, so an
announced count costs nothing by itself. -/
def decodeMany (c : Codec α) : Nat → Bytes → Option (List α × Bytes)
  | 0, bytes => some ([], bytes)
  | count + 1, bytes => do
    let (v, rest) ← c.decode bytes
    let (vs, rest) ← decodeMany c count rest
    return (v :: vs, rest)

/-- The number of values in eight bytes, and the values. -/
def list (c : Codec α) : Codec (List α) where
  encode vs := uint64.encode (UInt64.ofNat vs.length) ++ vs.flatMap c.encode
  decode bytes := do
    let (count, rest) ← uint64.decode bytes
    decodeMany c count.toNat rest
  Fits vs := vs.length < UInt64.size ∧ ∀ v ∈ vs, c.Fits v

/-- The number of bytes in eight bytes, and the bytes. -/
def bytes : Codec Bytes where
  encode bs := uint64.encode (UInt64.ofNat bs.length) ++ bs
  decode input := do
    let (count, rest) ← uint64.decode input
    Bytes.splitAt? count.toNat rest
  Fits bs := bs.length < UInt64.size

/-- The length of a text's UTF-8 form in eight bytes, and that form. -/
def text : Codec String :=
  bytes.refine Bytes.ofText Bytes.text?

/-- One of two alternatives, each led by its number in four bytes. -/
def alternatives (first : Codec α) (second : Codec β) : Codec (α ⊕ β) where
  encode
    | .inl a => uint32.encode 0 ++ first.encode a
    | .inr b => uint32.encode 1 ++ second.encode b
  decode bytes := do
    let (number, rest) ← uint32.decode bytes
    if number = 0 then (first.decode rest).map fun (a, rest) => (.inl a, rest)
    else if number = 1 then (second.decode rest).map fun (b, rest) => (.inr b, rest)
    else none
  Fits
    | .inl a => first.Fits a
    | .inr b => second.Fits b

/-- One of three alternatives, each led by its number in four bytes. -/
def threeAlternatives (first : Codec α) (second : Codec β) (third : Codec γ) :
    Codec (α ⊕ β ⊕ γ) where
  encode
    | .inl a => uint32.encode 0 ++ first.encode a
    | .inr (.inl b) => uint32.encode 1 ++ second.encode b
    | .inr (.inr c) => uint32.encode 2 ++ third.encode c
  decode bytes := do
    let (number, rest) ← uint32.decode bytes
    if number = 0 then (first.decode rest).map fun (a, rest) => (.inl a, rest)
    else if number = 1 then (second.decode rest).map fun (b, rest) => (.inr (.inl b), rest)
    else if number = 2 then (third.decode rest).map fun (c, rest) => (.inr (.inr c), rest)
    else none
  Fits
    | .inl a => first.Fits a
    | .inr (.inl b) => second.Fits b
    | .inr (.inr c) => third.Fits c

/-- The value in front of a byte string, whatever follows it. -/
def decode? (c : Codec α) (input : Bytes) : Option α :=
  (c.decode input).map (·.1)

end Codec

end LedgerClient.Wire
