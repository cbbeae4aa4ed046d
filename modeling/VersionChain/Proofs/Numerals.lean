import Mathlib.Data.List.TakeWhile
import VersionChain.Proofs.Precedence

/-!
# Versions that are numbers

Most versions are one to three numbers between points, perhaps after a `v`. Such a version has a semantic value if its numbers
are written plainly: without leading zeros, and below `2^64`. Plain ones come in the order of their numbers, the missing ones
being zero. A numeral that is not plain is a text like any other: it comes before every plain one, however great its numbers
are.
-/

namespace VersionChain

/-- A version text of one to three runs of digits between points, with or without a `v` in front. -/
structure Numeral where
  marked : Bool
  runs : List (List Char)
  runs_ne_nil : runs ≠ []
  length_runs_le : runs.length ≤ 3
  ne_nil : ∀ r ∈ runs, r ≠ []
  isDigit : ∀ r ∈ runs, r.all Char.isDigit = true

/-- A run of digits that has no leading zero and counts less than `2^64`. -/
def Identifier.IsPlain (r : List Char) : Prop := ¬(1 < r.length ∧ r.head? = some '0') ∧ value r < UInt64.size

instance (r : List Char) : Decidable (Identifier.IsPlain r) := inferInstanceAs (Decidable (_ ∧ _))

namespace Numeral

/-- The runs with their points. -/
def core (n : Numeral) : List Char := ['.'].intercalate n.runs

/-- The version that is written so. -/
def version (n : Numeral) : Version := ⟨String.ofList (if n.marked then 'v' :: n.core else n.core)⟩

/-- The number at a place, zero where it is missing. -/
def number (n : Numeral) (i : Nat) : Nat := (n.runs.map Identifier.value).getD i 0

/-- The three numbers. -/
def numbers (n : Numeral) : List Nat := [n.number 0, n.number 1, n.number 2]

/-- All numbers are written plainly. -/
def IsPlain (n : Numeral) : Prop := ∀ r ∈ n.runs, Identifier.IsPlain r

instance (n : Numeral) : Decidable n.IsPlain := inferInstanceAs (Decidable (∀ r ∈ n.runs, Identifier.IsPlain r))

/-- The semantic version of the three numbers. -/
def value (n : Numeral) : SemanticVersion := ⟨n.number 0, n.number 1, n.number 2, [], []⟩

end Numeral

/-! ## Reading a numeral -/

/-- A run of digits is read as a number if it is plain. -/
theorem SemanticVersion.number?_eq {r : List Char} (hne : r ≠ []) (hdigits : r.all Char.isDigit = true) :
    number? r = if Identifier.IsPlain r then some (Identifier.value r) else none := by
  have hrun : ¬(r.isEmpty || !r.all Char.isDigit) = true := by simp [hne, hdigits]
  unfold number?
  rw [if_neg hrun]
  by_cases h : Identifier.IsPlain r
  · rw [if_pos h, if_neg (by simpa using h.1)]
    exact if_pos h.2
  · rw [if_neg h]
    split
    · rfl
    · rename_i hlead
      exact if_neg fun hsmall => h ⟨by simpa using hlead, hsmall⟩

namespace Numeral

variable {n : Numeral}

/-- What joins lists with points consists of their elements and points. -/
theorem mem_intercalate_point {c : Char} {runs : List (List Char)} (h : c ∈ ['.'].intercalate runs) :
    c = '.' ∨ ∃ r ∈ runs, c ∈ r := by
  induction runs with
  | nil => simp at h
  | cons r rest ih =>
    cases rest with
    | nil =>
      rw [List.intercalate_singleton] at h
      exact Or.inr ⟨r, List.mem_singleton_self r, h⟩
    | cons s rest =>
      rw [List.intercalate_cons_cons, List.mem_append, List.mem_append, List.mem_singleton] at h
      rcases h with (h | h) | h
      · exact Or.inr ⟨r, List.mem_cons_self, h⟩
      · exact Or.inl h
      · rcases ih h with hpoint | ⟨t, ht, hc⟩
        · exact Or.inl hpoint
        · exact Or.inr ⟨t, List.mem_cons_of_mem r ht, hc⟩

theorem isDigit_or_eq_point_of_mem_core {c : Char} (h : c ∈ n.core) : c = '.' ∨ c.isDigit = true := by
  rcases mem_intercalate_point h with hpoint | ⟨r, hr, hc⟩
  · exact Or.inl hpoint
  · exact Or.inr (List.all_eq_true.mp (n.isDigit r hr) c hc)

theorem splitOn_core (n : Numeral) : n.core.splitOn '.' = n.runs := by
  refine List.splitOn_intercalate '.' (fun r hr hpoint => ?_) n.runs_ne_nil
  have hdigit := List.all_eq_true.mp (n.isDigit r hr) '.' hpoint
  exact absurd hdigit (by decide)

/-- No character of a numeral ends the core of a version. -/
theorem not_endsCore_of_mem_core : ∀ c ∈ n.core, (!SemanticVersion.endsCore c) = true := by
  intro c hc
  rcases isDigit_or_eq_point_of_mem_core hc with rfl | hdigit
  · rfl
  · have hmark : c ≠ '-' ∧ c ≠ '+' := by constructor <;> rintro rfl <;> nomatch hdigit
    simp [SemanticVersion.endsCore, hmark]

/-- A numeral has no suffix. -/
theorem ofText?_core (n : Numeral) :
    SemanticVersion.ofText? n.core = (SemanticVersion.core? n.core).map fun (a, b, c) => ⟨a, b, c, [], []⟩ := by
  unfold SemanticVersion.ofText?
  rw [List.takeWhile_eq_self_iff.mpr not_endsCore_of_mem_core, List.dropWhile_eq_nil_iff.mpr not_endsCore_of_mem_core]
  cases SemanticVersion.core? n.core <;> rfl

/-- The mark is no part of what is read. -/
theorem semantic_version (n : Numeral) : n.version.semantic = SemanticVersion.ofText? n.core := by
  unfold Version.semantic version
  rw [String.toList_ofList]
  cases n.marked with
  | true => rfl
  | false =>
    rw [if_neg Bool.false_ne_true]
    split
    · rename_i rest hcore
      rcases isDigit_or_eq_point_of_mem_core (hcore ▸ List.mem_cons_self) with h | h <;> nomatch h
    · rfl

/-- The core is read if all its numbers are plain. -/
theorem core?_core (n : Numeral) :
    SemanticVersion.core? n.core = if n.IsPlain then some (n.number 0, n.number 1, n.number 2) else none := by
  have hread : ∀ r ∈ n.runs, SemanticVersion.number? r = if Identifier.IsPlain r then some (Identifier.value r) else none :=
    fun r hr => SemanticVersion.number?_eq (n.ne_nil r hr) (n.isDigit r hr)
  have hplain : n.IsPlain ↔ ∀ r ∈ n.runs, Identifier.IsPlain r := Iff.rfl
  have hne := n.runs_ne_nil
  have hlength := n.length_runs_le
  unfold SemanticVersion.core? number
  rw [splitOn_core, if_congr hplain rfl rfl]
  generalize n.runs = runs at hread hne hlength
  match runs with
  | [] => exact absurd rfl hne
  | [a] =>
    dsimp only
    rw [hread a (by simp)]
    by_cases ha : Identifier.IsPlain a <;> simp [ha]
  | [a, b] =>
    dsimp only
    rw [hread a (by simp), hread b (by simp)]
    by_cases ha : Identifier.IsPlain a <;> by_cases hb : Identifier.IsPlain b <;> simp [ha, hb]
  | [a, b, c] =>
    dsimp only
    rw [hread a (by simp), hread b (by simp), hread c (by simp)]
    by_cases ha : Identifier.IsPlain a <;> by_cases hb : Identifier.IsPlain b <;> by_cases hc : Identifier.IsPlain c <;>
      simp [ha, hb, hc]
  | _ :: _ :: _ :: _ :: _ =>
    simp only [List.length_cons] at hlength
    omega

/-- A plain numeral has the value of its numbers, any other has none. -/
theorem semantic_eq (n : Numeral) : n.version.semantic = if n.IsPlain then some n.value else none := by
  rw [semantic_version, ofText?_core, core?_core]
  split <;> rfl

theorem semantic_of_isPlain (h : n.IsPlain) : n.version.semantic = some n.value := (semantic_eq n).trans (if_pos h)

theorem semantic_of_not_isPlain (h : ¬n.IsPlain) : n.version.semantic = none := (semantic_eq n).trans (if_neg h)

end Numeral

/-! ## The order of numerals -/

namespace Version

variable {a b : Version}

/-- Where a version has no value, the comparison by value is the linear one. -/
theorem semanticCompare_of_semantic_eq_none (h : a.semantic = none ∨ b.semantic = none) :
    semanticCompare a b = compare a b := by
  unfold semanticCompare
  rcases h with h | h
  · rw [h]
  · rw [h]
    cases a.semantic <;> rfl

/-- Versions of one value come by their characters. -/
theorem compare_of_semantic_eq (h : a.semantic = b.semantic) : compare a b = Ord.compare a.source b.source := by
  have hvalues : compareOn semantic a b = .eq := by
    rw [compareOn, h]
    exact Std.ReflCmp.compare_self
  unfold compare compareLex
  rw [hvalues]
  rfl

end Version

namespace Numeral

variable {a b : Numeral}

/-- Semantic versions of numbers alone come in the order of the numbers. -/
theorem compare_value (a b : Numeral) : SemanticVersion.compare a.value b.value = compare a.numbers b.numbers := by
  unfold SemanticVersion.compare compareLex compareOn numbers value
  simp only [List.compare_cons_cons]
  rfl

theorem semanticCompare_of_isPlain (ha : a.IsPlain) (hb : b.IsPlain) :
    Version.semanticCompare a.version b.version = compare a.numbers b.numbers := by
  rw [Version.semanticCompare, semantic_of_isPlain ha, semantic_of_isPlain hb]
  exact compare_value a b

theorem compare_eq_gt_of_isPlain (ha : a.IsPlain) (hb : ¬b.IsPlain) : Version.compare a.version b.version = .gt :=
  Version.compare_eq_gt_of_semantic (semantic_of_isPlain ha) (semantic_of_not_isPlain hb)

/-- Numerals that are plain come in the order of their numbers, and those of the same numbers are level by value. A numeral that
is not plain comes before every plain one, whatever its numbers are, and numerals that are not plain come by their characters. -/
theorem numerals_compare (a b : Numeral) :
    (a.IsPlain → b.IsPlain → a.numbers ≠ b.numbers →
      Version.compare a.version b.version = compare a.numbers b.numbers ∧
      Version.semanticCompare a.version b.version = compare a.numbers b.numbers) ∧
    (a.IsPlain → b.IsPlain → a.numbers = b.numbers →
      Version.compare a.version b.version = compare a.version.source b.version.source ∧
      Version.semanticCompare a.version b.version = .eq) ∧
    (a.IsPlain → ¬b.IsPlain →
      Version.compare a.version b.version = .gt ∧ Version.semanticCompare a.version b.version = .gt) ∧
    (¬a.IsPlain → b.IsPlain →
      Version.compare a.version b.version = .lt ∧ Version.semanticCompare a.version b.version = .lt) ∧
    (¬a.IsPlain → ¬b.IsPlain →
      Version.compare a.version b.version = compare a.version.source b.version.source ∧
      Version.semanticCompare a.version b.version = compare a.version.source b.version.source) := by
  refine ⟨fun ha hb hne => ?_, fun ha hb hsame => ?_, fun ha hb => ?_, fun ha hb => ?_, fun ha hb => ?_⟩
  · have hsemantic := semanticCompare_of_isPlain ha hb
    have hcompare : Version.semanticCompare a.version b.version ≠ .eq := by
      rw [hsemantic]
      exact fun h => hne (Std.LawfulEqOrd.eq_of_compare h)
    exact ⟨(Version.compare_of_semanticCompare_ne hcompare).trans hsemantic, hsemantic⟩
  · have hlevel : Version.semanticCompare a.version b.version = .eq := by
      rw [semanticCompare_of_isPlain ha hb, hsame]
      exact Std.ReflOrd.compare_self
    exact ⟨Version.compare_of_semantic_eq (Version.semanticCompare_eq_eq_iff.mp hlevel).1, hlevel⟩
  · have hgt := compare_eq_gt_of_isPlain ha hb
    exact ⟨hgt, (Version.semanticCompare_of_semantic_eq_none (Or.inr (semantic_of_not_isPlain hb))).trans hgt⟩
  · have hlt := Std.OrientedCmp.lt_of_gt (compare_eq_gt_of_isPlain hb ha)
    exact ⟨hlt, (Version.semanticCompare_of_semantic_eq_none (Or.inl (semantic_of_not_isPlain ha))).trans hlt⟩
  · have htext := Version.compare_of_semantic_eq ((semantic_of_not_isPlain ha).trans (semantic_of_not_isPlain hb).symm)
    exact ⟨htext, (Version.semanticCompare_of_semantic_eq_none (Or.inl (semantic_of_not_isPlain ha))).trans htext⟩

/-- The first version of a year, its month written with two digits. -/
def january : Numeral := ⟨false, ["2024".toList, "01".toList, "1".toList], by decide, by decide, by decide, by decide⟩

/-- The last month of the year before. -/
def december : Numeral := ⟨false, ["2023".toList, "12".toList, "1".toList], by decide, by decide, by decide, by decide⟩

example : january.version = ⟨"2024.01.1"⟩ ∧ january.numbers = [2024, 1, 1] := by decide

/-- Not all numerals come in the order of their numbers: the leading zero of `2024.01.1` puts it before `2023.12.1`. -/
theorem not_all_numerals_ordered :
    ¬∀ a b : Numeral, a.numbers ≠ b.numbers →
      Version.compare a.version b.version = compare a.numbers b.numbers ∧
      Version.semanticCompare a.version b.version = compare a.numbers b.numbers := by
  intro h
  have hgreater : compare january.numbers december.numbers = .gt := by decide
  have hnot : ¬january.IsPlain := by decide
  have hplain : december.IsPlain := by decide
  have hcompare := (h january december (by decide)).1
  rw [hgreater, Std.OrientedCmp.lt_of_gt (compare_eq_gt_of_isPlain hplain hnot)] at hcompare
  nomatch hcompare

end Numeral

end VersionChain
