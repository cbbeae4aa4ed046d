/-!
# Identifiers of a version's suffix

A suffix such as `rc.1` or `build.007` is a sequence of identifiers joined by points. An identifier is a non-empty run of
letters, digits and hyphens. Numeric identifiers come before the others, and among themselves by value and then by length, so
that `0 < 00 < 1 < 01 < 2 < 10`; the others compare by their characters.
-/

namespace VersionChain

/-- One identifier of a pre-release or build suffix. -/
structure Identifier where
  text : String
deriving DecidableEq

namespace Identifier

/-- The characters an identifier may hold: ASCII letters, digits and the hyphen. -/
def isIdentifierChar (c : Char) : Bool := c.isAlphanum || c == '-'

/-- The value of a run of decimal digits. -/
def value (digits : List Char) : Nat :=
  digits.foldl (fun n c => 10 * n + (c.toNat - '0'.toNat)) 0

/-- An identifier of digits alone is numeric. -/
def isNumeric (i : Identifier) : Bool := i.text.toList.all Char.isDigit

/-- The value of a numeric identifier; an identifier that is not numeric has none and counts as zero. -/
def magnitude (i : Identifier) : Nat := if i.isNumeric then value i.text.toList else 0

/-- The length of a numeric identifier; an identifier that is not numeric counts as zero. -/
def width (i : Identifier) : Nat := if i.isNumeric then i.text.toList.length else 0

/-- Numeric before alphanumeric, numeric ones by value and then by length, alphanumeric ones by their characters. -/
def compare : Identifier → Identifier → Ordering :=
  compareLex (compareOn fun i => !i.isNumeric)
    (compareLex (compareOn magnitude) (compareLex (compareOn width) (compareOn text)))

instance : Ord Identifier := ⟨compare⟩

instance : Std.TransOrd Identifier :=
  inferInstanceAs (Std.TransCmp (compareLex (compareOn fun i : Identifier => !i.isNumeric)
    (compareLex (compareOn magnitude) (compareLex (compareOn width) (compareOn text)))))

/-- An identifier of a build suffix: any non-empty run of identifier characters. -/
def ofBuild? (cs : List Char) : Option Identifier :=
  if !cs.isEmpty && cs.all isIdentifierChar then some ⟨String.ofList cs⟩ else none

/-- An identifier of a pre-release suffix: as for a build, and a numeric one has no leading zero. -/
def ofPreRelease? (cs : List Char) : Option Identifier :=
  if cs.all Char.isDigit && 1 < cs.length && cs.head? == some '0' then none else ofBuild? cs

/-- The identifiers between the points of a suffix, when `one` reads each of them. -/
def sequence? (one : List Char → Option Identifier) (cs : List Char) : Option (List Identifier) :=
  (cs.splitOn '.').mapM one

/-- The identifiers joined by points. -/
def joined (is : List Identifier) : String := ".".intercalate (is.map text)

end Identifier

end VersionChain
