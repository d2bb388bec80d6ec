import LedgerClient.Bytes

/-!
# `LedgerClient.Crypto.Sha2`: SHA-512 and SHA-384

Both digests run the same compression function over blocks of 128
bytes; SHA-384 starts from other words and keeps 48 bytes of the
result. The constants are not written out: the round constants are
the fractions of the cube roots of the first eighty primes, and the
starting words the fractions of square roots of primes, each to 64
bits.
-/

set_option autoImplicit false

namespace LedgerClient.Crypto

namespace Sha2

/-- Whether a number has no divisor between two and itself. -/
def isPrime (n : Nat) : Bool :=
  2 ≤ n && (List.range n).all fun d => d < 2 || n % d ≠ 0

/-- The primes below 410, of which there are eighty. -/
def primes : List Nat :=
  (List.range 410).filter isPrime

/-- The largest number below `2 ^ bits` whose `degree`-th power is at most `n`. -/
def root (degree n : Nat) : Nat → Nat → Nat
  | 0, found => found
  | bit + 1, found =>
    let next := found + 1 <<< bit
    root degree n bit (if Nat.pow next degree ≤ n then next else found)

/-- The first 64 bits of the fraction of a prime's root. -/
def rootFraction (degree prime : Nat) : UInt64 :=
  UInt64.ofNat (root degree (prime <<< (64 * degree)) 80 0)

/-- The constants of the eighty rounds. -/
def roundConstants : Array UInt64 :=
  (primes.map (rootFraction 3)).toArray

/-- The eight words of the state. -/
structure State where
  a : UInt64
  b : UInt64
  c : UInt64
  d : UInt64
  e : UInt64
  f : UInt64
  g : UInt64
  h : UInt64

/-- A state from its words. -/
def State.ofList : List UInt64 → State
  | [a, b, c, d, e, f, g, h] => ⟨a, b, c, d, e, f, g, h⟩
  | _ => ⟨0, 0, 0, 0, 0, 0, 0, 0⟩

/-- The words of a state. -/
def State.toList (s : State) : List UInt64 :=
  [s.a, s.b, s.c, s.d, s.e, s.f, s.g, s.h]

/-- The start of SHA-512. -/
def start512 : State :=
  State.ofList ((primes.take 8).map (rootFraction 2))

/-- The start of SHA-384. -/
def start384 : State :=
  State.ofList (((primes.drop 8).take 8).map (rootFraction 2))

/-- The word turned to the right by a number of bits. -/
def rotateRight (x n : UInt64) : UInt64 :=
  (x >>> n) ||| (x <<< (64 - n))

/-- The schedule of a block: its sixteen words, and sixty-four more mixed from them. -/
def schedule (block : Array UInt64) : Array UInt64 :=
  (List.range 64).foldl (fun w i =>
    let x := w.getD (i + 1) 0
    let y := w.getD (i + 14) 0
    let s0 := rotateRight x 1 ^^^ rotateRight x 8 ^^^ (x >>> 7)
    let s1 := rotateRight y 19 ^^^ rotateRight y 61 ^^^ (y >>> 6)
    w.push (w.getD i 0 + s0 + w.getD (i + 9) 0 + s1)) block

/-- One round. -/
def step (s : State) (constant word : UInt64) : State :=
  let s1 := rotateRight s.e 14 ^^^ rotateRight s.e 18 ^^^ rotateRight s.e 41
  let choice := (s.e &&& s.f) ^^^ (~~~s.e &&& s.g)
  let t1 := s.h + s1 + choice + constant + word
  let s0 := rotateRight s.a 28 ^^^ rotateRight s.a 34 ^^^ rotateRight s.a 39
  let majority := (s.a &&& s.b) ^^^ (s.a &&& s.c) ^^^ (s.b &&& s.c)
  ⟨t1 + (s0 + majority), s.a, s.b, s.c, s.d + t1, s.e, s.f, s.g⟩

/-- The state after a block. -/
def compress (s : State) (block : Array UInt64) : State :=
  let words := schedule block
  let mixed := (List.range 80).foldl
    (fun s i => step s (roundConstants.getD i 0) (words.getD i 0)) s
  State.ofList (List.zipWith (· + ·) s.toList mixed.toList)

/-- The message with a one bit, zero bits, and its length in bits, to a whole number of
blocks. -/
def padded (message : Bytes) : Bytes :=
  let zeros := (239 - message.length % 128) % 128
  message ++ 0x80 :: List.replicate zeros 0 ++ Bytes.bigEndian 16 (8 * message.length)

/-- The words of a byte string, eight bytes to a word. -/
def words : Bytes → List UInt64
  | a :: b :: c :: d :: e :: f :: g :: h :: rest =>
    UInt64.ofNat (Bytes.bigEndianValue [a, b, c, d, e, f, g, h]) :: words rest
  | _ => []

/-- The state after the first `blocks` blocks of sixteen words. -/
def absorb : Nat → State → List UInt64 → State
  | 0, s, _ => s
  | blocks + 1, s, ws => absorb blocks (compress s (ws.take 16).toArray) (ws.drop 16)

/-- The words of the last state, as bytes. -/
def digest (start : State) (message : Bytes) : Bytes :=
  let ws := words (padded message)
  (absorb (ws.length / 16) start ws).toList.flatMap fun w => Bytes.bigEndian 8 w.toNat

end Sha2

/-- The SHA-512 digest of a message: 64 bytes. -/
def sha512 (message : Bytes) : Bytes :=
  Sha2.digest Sha2.start512 message

/-- The SHA-384 digest of a message: 48 bytes. -/
def sha384 (message : Bytes) : Bytes :=
  (Sha2.digest Sha2.start384 message).take 48

end LedgerClient.Crypto
