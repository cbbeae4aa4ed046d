import VersionChain.Version.Semantic

/-!
# Versions

A version is the text a repository lists. Many texts have a semantic value (`1.2`, `v1.2.0` and `1.2.0` have the same one),
others have none (`nightly`). Two orders compare versions: `compare` is linear and tells apart any two texts, `semanticCompare`
tells apart only what the semantic values tell apart.
-/

namespace VersionChain

/-- A version as it is listed. -/
@[ext] structure Version where
  source : String
deriving DecidableEq

namespace Version

/-- The semantic value of a version, read after one leading `v` if there is one. -/
def semantic (v : Version) : Option SemanticVersion :=
  match v.source.toList with
  | 'v' :: rest => SemanticVersion.ofText? rest
  | cs => SemanticVersion.ofText? cs

/-- A version with a semantic value and a pre-release suffix. -/
def isPreRelease (v : Version) : Bool :=
  match v.semantic with
  | some s => !s.isRelease
  | none => false

/-- By semantic value, a version without one being below every version with one; among equals by the characters of the text. -/
def compare : Version → Version → Ordering :=
  compareLex (compareOn semantic) (compareOn source)

instance : Ord Version := ⟨compare⟩

instance : Std.TransOrd Version :=
  inferInstanceAs (Std.TransCmp (compareLex (compareOn semantic) (compareOn source)))

instance : Std.LawfulEqOrd Version where
  eq_of_compare {a b} h := by
    have hs : compareOn source a b = .eq := (compareLex_eq_eq.1 h).2
    exact Version.ext (Std.LawfulEqOrd.eq_of_compare hs)

instance : Std.TransCmp compare := inferInstanceAs (Std.TransOrd Version)

instance : Std.LawfulEqCmp compare := inferInstanceAs (Std.LawfulEqOrd Version)

/-- By semantic value alone when both versions have one, otherwise as `compare`. -/
def semanticCompare (a b : Version) : Ordering :=
  match a.semantic, b.semantic with
  | some x, some y => SemanticVersion.compare x y
  | _, _ => compare a b

/-- The versions from least to greatest. -/
def ascending (vs : List Version) : List Version := vs.mergeSort fun a b => (compare a b).isLE

theorem ascending_perm (vs : List Version) : (ascending vs).Perm vs := List.mergeSort_perm vs _

end Version

end VersionChain
