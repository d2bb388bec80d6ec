/-!
# `LedgerClient.Text.Blank`: white space at the ends of a text

Keys are pasted, so the white space around them is not part of them.
White space is the Unicode property of that name: twenty-five
characters, among them the no-break space, and not the zero-width
space.
-/

set_option autoImplicit false

namespace LedgerClient.Text

/-- The Unicode property `White_Space`. -/
def isBlank (c : Char) : Bool :=
  let n := c.toNat
  (9 ≤ n && n ≤ 13) || n == 0x20 || n == 0x85 || n == 0xA0 || n == 0x1680 ||
    (0x2000 ≤ n && n ≤ 0x200A) || n == 0x2028 || n == 0x2029 || n == 0x202F ||
    n == 0x205F || n == 0x3000

/-- The text without the white space at its two ends. -/
def trim (cs : List Char) : List Char :=
  ((cs.dropWhile isBlank).reverse.dropWhile isBlank).reverse

end LedgerClient.Text
