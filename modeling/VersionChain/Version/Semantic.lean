import VersionChain.Version.Identifier

/-!
# Semantic versions

Three numbers below `2^64`, a pre-release suffix and a build suffix. Versions compare by the numbers, then by the pre-release,
where having none is the greatest, then by the build, where having none is the least; so the order is total and the build counts.
-/

namespace VersionChain

/-- The value of a version text that follows the semantic scheme; an absent suffix is an empty list. -/
structure SemanticVersion where
  major : Nat
  minor : Nat
  patch : Nat
  preRelease : List Identifier
  build : List Identifier
deriving DecidableEq

namespace SemanticVersion

/-- A version without a pre-release suffix is a release. -/
def isRelease (v : SemanticVersion) : Bool := v.preRelease.isEmpty

/-- The order by numbers, then pre-release, then build. -/
def compare : SemanticVersion → SemanticVersion → Ordering :=
  compareLex (compareOn major) <| compareLex (compareOn minor) <| compareLex (compareOn patch) <|
    compareLex (compareOn isRelease) <| compareLex (compareOn preRelease) (compareOn build)

instance : Ord SemanticVersion := ⟨compare⟩

instance : Std.TransOrd SemanticVersion :=
  inferInstanceAs (Std.TransCmp (compareLex (compareOn major) <| compareLex (compareOn minor) <|
    compareLex (compareOn patch) <| compareLex (compareOn isRelease) <|
      compareLex (compareOn preRelease) (compareOn build)))

/-- The text after a mark, or nothing when there is nothing to mark. -/
def marked (mark : String) : List Identifier → String
  | [] => ""
  | is => mark ++ Identifier.joined is

/-- The canonical text: the three numbers, `-` and the pre-release, `+` and the build. -/
def text (v : SemanticVersion) : String :=
  toString v.major ++ "." ++ toString v.minor ++ "." ++ toString v.patch ++ marked "-" v.preRelease ++ marked "+" v.build

/-- A number of the core: decimal digits without a leading zero, below `2^64`. -/
def number? (cs : List Char) : Option Nat :=
  if cs.isEmpty || !cs.all Char.isDigit then none
  else if 1 < cs.length && cs.head? == some '0' then none
  else
    let n := Identifier.value cs
    if n < UInt64.size then some n else none

/-- The core: one to three numbers between points, the missing ones being zero. -/
def core? (cs : List Char) : Option (Nat × Nat × Nat) :=
  match cs.splitOn '.' with
  | [a] => do return (← number? a, 0, 0)
  | [a, b] => do return (← number? a, ← number? b, 0)
  | [a, b, c] => do return (← number? a, ← number? b, ← number? c)
  | _ => none

/-- The suffixes: an optional `-` and pre-release, then an optional `+` and build. -/
def suffixes? : List Char → Option (List Identifier × List Identifier)
  | [] => some ([], [])
  | '+' :: build => do return ([], ← Identifier.sequence? Identifier.ofBuild? build)
  | '-' :: rest => do
    let preRelease ← Identifier.sequence? Identifier.ofPreRelease? (rest.takeWhile (· != '+'))
    match rest.dropWhile (· != '+') with
    | [] => return (preRelease, [])
    | _ :: build => return (preRelease, ← Identifier.sequence? Identifier.ofBuild? build)
  | _ :: _ => none

/-- The mark at which the core of a version text ends. -/
def endsCore (c : Char) : Bool := c == '-' || c == '+'

/-- The value of a version text: a core of one to three numbers, then the suffixes. -/
def ofText? (cs : List Char) : Option SemanticVersion := do
  let (major, minor, patch) ← core? (cs.takeWhile (!endsCore ·))
  let (preRelease, build) ← suffixes? (cs.dropWhile (!endsCore ·))
  return { major, minor, patch, preRelease, build }

end SemanticVersion

end VersionChain
