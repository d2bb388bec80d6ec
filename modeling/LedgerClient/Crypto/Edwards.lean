import LedgerClient.Bytes

/-!
# `LedgerClient.Crypto.Edwards`: the group of the signature scheme

The group is the twisted Edwards curve `-x² + y² = 1 + d·x²·y²` over
the integers modulo `2²⁵⁵ - 19`. A point is kept in four coordinates
`(X : Y : Z : T)` with `x = X/Z`, `y = Y/Z` and `x·y = T/Z`, in which
one formula adds any two points and no division is needed until a
point is written.

A point is written as its `y` in 255 bits and the parity of its `x`.
Reading takes `y` modulo the prime, and asks only that an `x` exists:
a `y` beyond the prime, the parity bit of a zero `x` and points of
small order are all accepted.
-/

set_option autoImplicit false

namespace LedgerClient.Crypto.Edwards

/-- The prime of the field. -/
def prime : Nat := 1 <<< 255 - 19

/-- The order of the subgroup that the base point generates. -/
def order : Nat := 1 <<< 252 + 27742317777372353535851937790883648493

/-- The product in the field. -/
def mul (a b : Nat) : Nat := a * b % prime

/-- The sum in the field. -/
def add (a b : Nat) : Nat := (a + b) % prime

/-- The difference in the field, of two reduced elements. -/
def sub (a b : Nat) : Nat := (a + prime - b) % prime

/-- A power in the field, by squaring. The exponent has at most `bits` bits. -/
def pow (base : Nat) : Nat → Nat → Nat
  | 0, _ => 1
  | bits + 1, exponent =>
    let half := pow base bits (exponent / 2)
    let square := mul half half
    if exponent % 2 = 1 then mul square base else square

/-- The inverse in the field, and zero for zero. -/
def inverse (a : Nat) : Nat := pow a 256 (prime - 2)

/-- The constant of the curve. -/
def d : Nat := mul (prime - 121665) (inverse 121666)

/-- A square root of minus one. -/
def rootOfMinusOne : Nat := pow 2 256 ((prime - 1) / 4)

/-- A point in extended coordinates. -/
structure Point where
  x : Nat
  y : Nat
  z : Nat
  t : Nat
deriving DecidableEq, Repr

/-- The point with the given affine coordinates. -/
def Point.affine (x y : Nat) : Point := ⟨x, y, 1, mul x y⟩

/-- The neutral element. -/
def Point.neutral : Point := ⟨0, 1, 1, 0⟩

/-- The sum of two points. -/
def Point.add (p q : Point) : Point :=
  let a := mul (sub p.y p.x) (sub q.y q.x)
  let b := mul (Edwards.add p.y p.x) (Edwards.add q.y q.x)
  let c := mul (mul p.t q.t) (2 * d % prime)
  let z := mul (2 * p.z % prime) q.z
  let e := sub b a
  let f := sub z c
  let g := Edwards.add z c
  let h := Edwards.add b a
  ⟨mul e f, mul g h, mul f g, mul e h⟩

/-- The inverse of a point. -/
def Point.neg (p : Point) : Point :=
  ⟨sub 0 p.x, p.y, p.z, sub 0 p.t⟩

/-- A multiple of a point, by doubling. The factor has at most `bits` bits. -/
def Point.times (p : Point) : Nat → Nat → Point
  | 0, _ => Point.neutral
  | bits + 1, factor =>
    let half := times p bits (factor / 2)
    let double := half.add half
    if factor % 2 = 1 then double.add p else double

/-- A square root of `u / v` in the field, if there is one: the even one of the two. -/
def rootOfRatio? (u v : Nat) : Option Nat :=
  let v3 := mul (mul v v) v
  let v7 := mul (mul v3 v3) v
  let r := mul (mul u v3) (pow (mul u v7) 256 ((prime - 5) / 8))
  let check := mul v (mul r r)
  let root :=
    if check = u then some r
    else if check = sub 0 u then some (mul r rootOfMinusOne)
    else none
  root.map fun r => if r % 2 = 0 then r else sub 0 r

/-- The point that a byte string writes, if there is one. -/
def Point.decode? (bytes : Bytes) : Option Point :=
  let n := Bytes.littleEndianValue bytes
  let odd := n >>> 255 % 2 = 1
  let y := n % 1 <<< 255 % prime
  let y2 := mul y y
  (rootOfRatio? (sub y2 1) (Edwards.add (mul d y2) 1)).map fun x =>
    Point.affine (if odd then sub 0 x else x) y

/-- The thirty-two bytes of a point. -/
def Point.encode (p : Point) : Bytes :=
  let zi := inverse p.z
  let x := mul p.x zi
  let y := mul p.y zi
  Bytes.littleEndian 32 (y + (x % 2) <<< 255)

/-- The base point: `y` is four fifths, and `x` is even. -/
def base : Point :=
  let y := mul 4 (inverse 5)
  let y2 := mul y y
  match rootOfRatio? (sub y2 1) (Edwards.add (mul d y2) 1) with
  | some x => Point.affine x y
  | none => Point.neutral

end LedgerClient.Crypto.Edwards
