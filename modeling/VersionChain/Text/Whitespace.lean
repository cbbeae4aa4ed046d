/-!
# White space

The characters with the Unicode property `White_Space`, and texts cut free of them at both ends. Every place of this library
that trims a text or looks for a blank in one uses this class.
-/

namespace VersionChain.Text

/-- The twenty-five characters with the Unicode property `White_Space`. -/
def isSpace (c : Char) : Bool :=
  let n := c.toNat
  (0x9 ≤ n && n ≤ 0xD) || n == 0x20 || n == 0x85 || n == 0xA0 || n == 0x1680 || (0x2000 ≤ n && n ≤ 0x200A) ||
    n == 0x2028 || n == 0x2029 || n == 0x202F || n == 0x205F || n == 0x3000

/-- The text without the white space at its two ends. -/
def trimmed (cs : List Char) : List Char :=
  ((cs.dropWhile isSpace).reverse.dropWhile isSpace).reverse

/-- A text is blank when white space is all it holds. -/
def isBlank (cs : List Char) : Bool := cs.all isSpace

end VersionChain.Text
