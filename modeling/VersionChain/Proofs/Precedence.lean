import VersionChain.Version.Basic

/-!
# The order of versions

Semantic versions precede each other by rules: the numbers count first, then the pre-release, then the build, and suffixes are taken
identifier by identifier. `Precedes` states the rules one by one, and the comparison decides just that. Two orders of versions rest
on it: a coarser one by value, and a linear one that refines it and tells apart any two texts. So versions of one value lie side by
side wherever versions are in order.
-/

namespace VersionChain

/-- A comparison by one key and then by another one. -/
theorem compareLex_eq_lt_iff {α : Type} {first second : α → α → Ordering} {a b : α} :
    compareLex first second a b = .lt ↔ first a b = .lt ∨ first a b = .eq ∧ second a b = .lt :=
  Ordering.then_eq_lt

/-! ## Identifiers -/

namespace Identifier

/-- A digit that is read on counts less than ten, so the value tells it from what was read before. -/
theorem eq_of_next_digit {d e : Char} (hd : d.isDigit = true) (he : e.isDigit = true) {m n : Nat}
    (h : 10 * m + (d.toNat - '0'.toNat) = 10 * n + (e.toNat - '0'.toNat)) : m = n ∧ d = e := by
  have hzero : '0'.toNat = 48 := rfl
  have hbounds : ∀ c : Char, c.isDigit = true → 48 ≤ c.toNat ∧ c.toNat ≤ 57 := by
    intro c hc
    simp only [Char.isDigit, Bool.and_eq_true, decide_eq_true_eq, ge_iff_le, UInt32.le_iff_toNat_le] at hc
    exact hc
  have := hbounds d hd
  have := hbounds e he
  exact ⟨by omega, Char.toNat_inj.mp (by omega)⟩

/-- Digits that are read on from two values lead to the same value only if both the values and the digits are the same. -/
theorem eq_of_foldl_digits_eq {ds : List Char} (hd : ds.all Char.isDigit = true) :
    ∀ {es : List Char} {m n : Nat}, es.all Char.isDigit = true → ds.length = es.length →
      ds.foldl (fun n c => 10 * n + (c.toNat - '0'.toNat)) m = es.foldl (fun n c => 10 * n + (c.toNat - '0'.toNat)) n →
        m = n ∧ ds = es := by
  induction ds with
  | nil =>
    intro es m n _ hlength h
    obtain rfl := List.length_eq_zero_iff.mp hlength.symm
    exact ⟨h, rfl⟩
  | cons d ds ih =>
    rintro (_ | ⟨e, es⟩) m n he hlength h
    · nomatch hlength
    · obtain ⟨hd, hds⟩ := Bool.and_eq_true_iff.mp hd
      obtain ⟨he, hes⟩ := Bool.and_eq_true_iff.mp he
      obtain ⟨hstep, hrest⟩ := ih hds hes (Nat.succ.inj hlength) h
      obtain ⟨hbefore, hdigit⟩ := eq_of_next_digit hd he hstep
      exact ⟨hbefore, by rw [hdigit, hrest]⟩

/-- Two numerals of one length and one value are the same. -/
theorem eq_of_value_eq {ds es : List Char} (hd : ds.all Char.isDigit = true) (he : es.all Char.isDigit = true)
    (hlength : ds.length = es.length) (hvalue : value ds = value es) : ds = es :=
  (eq_of_foldl_digits_eq hd he hlength hvalue).2

/-- Which of two identifiers comes first. -/
inductive Precedes (i j : Identifier) : Prop where
  /-- A numeric identifier comes before any other. -/
  | kind (numeric : i.isNumeric = true) (other : j.isNumeric = false)
  /-- Of numeric identifiers, the one of smaller value comes first. -/
  | value (numeric : i.isNumeric = true) (numeric' : j.isNumeric = true)
      (less : Identifier.value i.text.toList < Identifier.value j.text.toList)
  /-- Of numeric identifiers of one value, the one with fewer leading zeros comes first. -/
  | zeros (numeric : i.isNumeric = true) (numeric' : j.isNumeric = true)
      (same : Identifier.value i.text.toList = Identifier.value j.text.toList)
      (shorter : i.text.toList.length < j.text.toList.length)
  /-- Other identifiers come by their characters. -/
  | text (other : i.isNumeric = false) (other' : j.isNumeric = false) (less : i.text < j.text)

/-- Where an identifier is numeric or not, the keys that decide are those of its kind. -/
theorem compare_keys (i j : Identifier) :
    compare i j = .lt ↔
      i.isNumeric = true ∧ j.isNumeric = false ∨ i.isNumeric = j.isNumeric ∧
        (i.magnitude < j.magnitude ∨ i.magnitude = j.magnitude ∧
          (i.width < j.width ∨ i.width = j.width ∧ i.text < j.text)) := by
  have hkind : Ord.compare (!i.isNumeric) (!j.isNumeric) = .lt ↔ i.isNumeric = true ∧ j.isNumeric = false := by
    cases i.isNumeric <;> cases j.isNumeric <;> decide
  have hsame : Ord.compare (!i.isNumeric) (!j.isNumeric) = .eq ↔ i.isNumeric = j.isNumeric := by
    cases i.isNumeric <;> cases j.isNumeric <;> decide
  have htext : Ord.compare i.text j.text = .lt ↔ i.text < j.text := compareOfLessAndEq_eq_lt
  unfold compare
  simp only [compareLex_eq_lt_iff, compareOn, hkind, hsame, htext, Nat.compare_eq_lt, Nat.compare_eq_eq]

/-- The comparison decides which identifier comes first. -/
theorem compare_eq_lt_iff {i j : Identifier} : compare i j = .lt ↔ i.Precedes j := by
  have hnumeric : ∀ i : Identifier, i.isNumeric = true →
      i.magnitude = Identifier.value i.text.toList ∧ i.width = i.text.toList.length :=
    fun i hi => ⟨if_pos hi, if_pos hi⟩
  have hother : ∀ i : Identifier, i.isNumeric = false → i.magnitude = 0 ∧ i.width = 0 :=
    fun i hi => ⟨if_neg (by simp [hi]), if_neg (by simp [hi])⟩
  rw [compare_keys]
  constructor
  · rintro (⟨hi, hj⟩ | ⟨hkind, hrest⟩)
    · exact .kind hi hj
    · cases hi : i.isNumeric with
      | false =>
        have hj := hkind.symm.trans hi
        rw [(hother i hi).1, (hother i hi).2, (hother j hj).1, (hother j hj).2] at hrest
        exact .text hi hj (by simpa using hrest)
      | true =>
        have hj := hkind.symm.trans hi
        rw [(hnumeric i hi).1, (hnumeric i hi).2, (hnumeric j hj).1, (hnumeric j hj).2] at hrest
        rcases hrest with hless | ⟨hsame, hshorter | ⟨hlength, htext⟩⟩
        · exact .value hi hj hless
        · exact .zeros hi hj hsame hshorter
        · -- numerals of one value and one length do not differ
          have heq := String.toList_inj.mp (eq_of_value_eq hi hj hlength hsame)
          rw [heq] at htext
          exact absurd htext (String.lt_irrefl _)
  · rintro (⟨hi, hj⟩ | ⟨hi, hj, hless⟩ | ⟨hi, hj, hsame, hshorter⟩ | ⟨hi, hj, hless⟩)
    · exact Or.inl ⟨hi, hj⟩
    · rw [(hnumeric i hi).1, (hnumeric j hj).1]
      exact Or.inr ⟨hi.trans hj.symm, Or.inl hless⟩
    · rw [(hnumeric i hi).1, (hnumeric i hi).2, (hnumeric j hj).1, (hnumeric j hj).2]
      exact Or.inr ⟨hi.trans hj.symm, Or.inr ⟨hsame, Or.inl hshorter⟩⟩
    · rw [(hother i hi).1, (hother i hi).2, (hother j hj).1, (hother j hj).2]
      exact Or.inr ⟨hi.trans hj.symm, Or.inr ⟨rfl, Or.inr ⟨rfl, hless⟩⟩⟩

instance : Std.LawfulEqOrd Identifier where
  eq_of_compare {i j} h := by
    have hrest := (compareLex_eq_eq.mp (compareLex_eq_eq.mp (compareLex_eq_eq.mp h).2).2).2
    have htext : i.text = j.text := Std.LawfulEqOrd.eq_of_compare hrest
    cases i
    cases j
    exact congrArg Identifier.mk htext

/-- The comparison of suffixes decides which comes first at the first identifier that differs; a suffix comes before all that it
begins. -/
theorem compare_list_eq_lt_iff {is js : List Identifier} : Ord.compare is js = .lt ↔ List.Lex Precedes is js := by
  induction is generalizing js with
  | nil =>
    cases js with
    | nil => exact ⟨nofun, nofun⟩
    | cons j js => exact ⟨fun _ => .nil, fun _ => rfl⟩
  | cons i is ih =>
    cases js with
    | nil => exact ⟨nofun, nofun⟩
    | cons j js =>
      rw [List.compare_cons_cons, Ordering.then_eq_lt, ih, Std.compare_eq_iff_eq]
      have hfirst : Ord.compare i j = .lt ↔ i.Precedes j := compare_eq_lt_iff
      rw [hfirst]
      constructor
      · rintro (h | ⟨rfl, h⟩)
        · exact .rel h
        · exact .cons h
      · rintro (_ | h | h)
        · exact Or.inl h
        · exact Or.inr ⟨rfl, h⟩

end Identifier

/-! ## Semantic versions -/

namespace SemanticVersion

/-- Two versions have the same numbers. -/
def SameCore (a b : SemanticVersion) : Prop := a.major = b.major ∧ a.minor = b.minor ∧ a.patch = b.patch

/-- Which of two semantic versions comes first. -/
inductive Precedes (a b : SemanticVersion) : Prop where
  | major (less : a.major < b.major)
  | minor (same : a.major = b.major) (less : a.minor < b.minor)
  | patch (same : a.major = b.major) (same' : a.minor = b.minor) (less : a.patch < b.patch)
  /-- A pre-release comes before the release. -/
  | release (same : a.SameCore b) (early : a.preRelease ≠ []) (release : b.preRelease = [])
  /-- Pre-releases come by their identifiers. -/
  | preRelease (same : a.SameCore b) (early : a.preRelease ≠ []) (early' : b.preRelease ≠ [])
      (less : List.Lex Identifier.Precedes a.preRelease b.preRelease)
  /-- All else being the same, builds come by their identifiers, and no build comes first. -/
  | build (same : a.SameCore b) (same' : a.preRelease = b.preRelease)
      (less : List.Lex Identifier.Precedes a.build b.build)

theorem compare_keys (a b : SemanticVersion) :
    compare a b = .lt ↔
      a.major < b.major ∨ a.major = b.major ∧ (a.minor < b.minor ∨ a.minor = b.minor ∧ (a.patch < b.patch ∨ a.patch = b.patch ∧
        (a.isRelease = false ∧ b.isRelease = true ∨ a.isRelease = b.isRelease ∧
          (List.Lex Identifier.Precedes a.preRelease b.preRelease ∨ a.preRelease = b.preRelease ∧
            List.Lex Identifier.Precedes a.build b.build)))) := by
  have hrelease : Ord.compare a.isRelease b.isRelease = .lt ↔ a.isRelease = false ∧ b.isRelease = true := by
    cases a.isRelease <;> cases b.isRelease <;> decide
  unfold compare
  simp only [compareLex_eq_lt_iff, compareOn, hrelease, Identifier.compare_list_eq_lt_iff, Nat.compare_eq_lt,
    Std.compare_eq_iff_eq]

theorem isRelease_eq_true_iff {a : SemanticVersion} : a.isRelease = true ↔ a.preRelease = [] := List.isEmpty_iff

theorem isRelease_eq_false_iff {a : SemanticVersion} : a.isRelease = false ↔ a.preRelease ≠ [] := List.isEmpty_eq_false_iff

/-- The comparison decides which version comes first. -/
theorem compare_eq_lt_iff {a b : SemanticVersion} : compare a b = .lt ↔ a.Precedes b := by
  rw [compare_keys]
  constructor
  · rintro (hmajor | ⟨hmajor, hminor | ⟨hminor, hpatch | ⟨hpatch, ⟨ha, hb⟩ | ⟨hkind, hlist | ⟨hsame, hlist⟩⟩⟩⟩⟩)
    · exact .major hmajor
    · exact .minor hmajor hminor
    · exact .patch hmajor hminor hpatch
    · exact .release ⟨hmajor, hminor, hpatch⟩ (isRelease_eq_false_iff.mp ha) (isRelease_eq_true_iff.mp hb)
    · have hb : b.preRelease ≠ [] := by
        intro hnil
        rw [hnil] at hlist
        exact List.not_lex_nil hlist
      have ha := hkind.trans (isRelease_eq_false_iff.mpr hb)
      exact .preRelease ⟨hmajor, hminor, hpatch⟩ (isRelease_eq_false_iff.mp ha) hb hlist
    · exact .build ⟨hmajor, hminor, hpatch⟩ hsame hlist
  · intro h
    cases h with
    | major less => exact Or.inl less
    | minor same less => exact Or.inr ⟨same, Or.inl less⟩
    | patch same same' less => exact Or.inr ⟨same, Or.inr ⟨same', Or.inl less⟩⟩
    | release same early release =>
      obtain ⟨hmajor, hminor, hpatch⟩ := same
      refine Or.inr ⟨hmajor, Or.inr ⟨hminor, Or.inr ⟨hpatch, Or.inl ⟨?_, ?_⟩⟩⟩⟩
      · exact isRelease_eq_false_iff.mpr early
      · exact isRelease_eq_true_iff.mpr release
    | preRelease same early early' less =>
      obtain ⟨hmajor, hminor, hpatch⟩ := same
      refine Or.inr ⟨hmajor, Or.inr ⟨hminor, Or.inr ⟨hpatch, Or.inr ⟨?_, Or.inl less⟩⟩⟩⟩
      rw [isRelease_eq_false_iff.mpr early, isRelease_eq_false_iff.mpr early']
    | build same same' less =>
      obtain ⟨hmajor, hminor, hpatch⟩ := same
      refine Or.inr ⟨hmajor, Or.inr ⟨hminor, Or.inr ⟨hpatch, Or.inr ⟨?_, Or.inr ⟨same', less⟩⟩⟩⟩⟩
      rw [isRelease, isRelease, same']

instance : Std.LawfulEqOrd SemanticVersion where
  eq_of_compare {a b} h := by
    obtain ⟨hmajor, hrest⟩ := compareLex_eq_eq.mp h
    obtain ⟨hminor, hrest⟩ := compareLex_eq_eq.mp hrest
    obtain ⟨hpatch, hrest⟩ := compareLex_eq_eq.mp hrest
    obtain ⟨-, hrest⟩ := compareLex_eq_eq.mp hrest
    obtain ⟨hpre, hbuild⟩ := compareLex_eq_eq.mp hrest
    obtain ⟨major, minor, patch, preRelease, build⟩ := a
    obtain ⟨major', minor', patch', preRelease', build'⟩ := b
    simp only [compareOn, Std.compare_eq_iff_eq] at hmajor hminor hpatch hpre hbuild
    rw [hmajor, hminor, hpatch, hpre, hbuild]

end SemanticVersion

/-! ## Versions -/

/-- A comparison puts a type in order, where different things may be level. -/
structure OrdersTotally {α : Type} (cmp : α → α → Ordering) : Prop where
  refl : ∀ a, cmp a a = .eq
  swap : ∀ a b, cmp b a = (cmp a b).swap
  trans : ∀ a b c, (cmp a b).isLE = true → (cmp b c).isLE = true → (cmp a c).isLE = true
  total : ∀ a b, (cmp a b).isLE = true ∨ (cmp b a).isLE = true

theorem ordersTotally_of_transCmp {α : Type} (cmp : α → α → Ordering) [Std.TransCmp cmp] : OrdersTotally cmp where
  refl _ := Std.ReflCmp.compare_self
  swap _ _ := Std.OrientedCmp.eq_swap
  trans _ _ _ := Std.TransCmp.isLE_trans
  total a b := by
    cases hc : cmp a b with
    | lt | eq => exact Or.inl rfl
    | gt =>
      rw [Std.OrientedCmp.lt_of_gt hc]
      exact Or.inr rfl

/-- The entries of a list whose key compares with a value as given. -/
def sideOf {α κ : Type} [Ord κ] (key : α → κ) (k : κ) (side : Ordering) (l : List α) : List α :=
  l.filter fun a => compare (key a) k == side

/-- In a list in order of a key, the entries below a value of the key come first, then those at it, then those above it. -/
theorem eq_append_sideOf {α κ : Type} [Ord κ] [Std.TransOrd κ] (key : α → κ) (k : κ) {l : List α}
    (h : l.Pairwise fun a b => (compare (key a) (key b)).isLE = true) :
    l = sideOf key k .lt l ++ sideOf key k .eq l ++ sideOf key k .gt l := by
  induction l with
  | nil => rfl
  | cons a l ih =>
    obtain ⟨hfirst, hl⟩ := List.pairwise_cons.mp h
    have hcons : ∀ side, sideOf key k side (a :: l) =
        if compare (key a) k == side then a :: sideOf key k side l else sideOf key k side l :=
      fun side => List.filter_cons
    have hnone : ∀ side, (∀ b ∈ l, compare (key b) k ≠ side) → sideOf key k side l = [] :=
      fun side hside => List.filter_eq_nil_iff.mpr fun b hb hbo => hside b hb (beq_iff_eq.mp hbo)
    have ih := ih hl
    rw [hcons, hcons, hcons]
    cases hc : compare (key a) k with
    | lt =>
      change a :: l = (a :: sideOf key k .lt l) ++ sideOf key k .eq l ++ sideOf key k .gt l
      rw [List.cons_append, List.cons_append, ← ih]
    | eq =>
      have hbelow : sideOf key k .lt l = [] := hnone .lt fun b hb hlt =>
        nomatch hc.symm.trans (Std.TransCmp.lt_of_isLE_of_lt (hfirst b hb) hlt)
      rw [hbelow, List.nil_append] at ih
      change a :: l = sideOf key k .lt l ++ (a :: sideOf key k .eq l) ++ sideOf key k .gt l
      rw [hbelow, List.nil_append, List.cons_append, ← ih]
    | gt =>
      have hnot : ∀ side : Ordering, side.isLE = true → sideOf key k side l = [] := fun side hside => by
        refine hnone side fun b hb hbk => ?_
        have hle := Std.TransCmp.isLE_trans (hfirst b hb) (hbk ▸ hside)
        rw [hc] at hle
        nomatch hle
      rw [hnot .lt rfl, hnot .eq rfl] at ih
      change a :: l = sideOf key k .lt l ++ sideOf key k .eq l ++ (a :: sideOf key k .gt l)
      rw [hnot .lt rfl, hnot .eq rfl]
      exact congrArg (a :: ·) ih

namespace Version

/-- A version with a value is above every version without one. -/
theorem compare_eq_gt_of_semantic {a b : Version} {x : SemanticVersion} (ha : a.semantic = some x) (hb : b.semantic = none) :
    compare a b = .gt := by
  have hvalues : compareOn semantic a b = .gt := by
    rw [compareOn, ha, hb]
    rfl
  unfold compare compareLex
  rw [hvalues]
  rfl

/-- What tells apart versions without a value. -/
def bareText (v : Version) : String := if v.semantic.isSome then "" else v.source

/-- The comparison by value is one by value and then by the text of versions without one. -/
theorem semanticCompare_eq : semanticCompare = compareLex (compareOn semantic) (compareOn bareText) := by
  funext a b
  unfold semanticCompare compare compareLex compareOn bareText
  cases ha : a.semantic with
  | none =>
    cases hb : b.semantic with
    | none => rfl
    | some y => rfl
  | some x =>
    cases hb : b.semantic with
    | none => rfl
    | some y =>
      have hsame : Ord.compare "" "" = .eq := Std.ReflOrd.compare_self
      dsimp only
      rw [Option.isSome_some, Option.isSome_some, if_pos rfl, if_pos rfl, hsame, Ordering.then_eq]
      rfl

instance : Std.TransCmp semanticCompare := by
  rw [semanticCompare_eq]
  infer_instance

/-- Versions are level by value if they have the same one, or if they have none and are the same. -/
theorem semanticCompare_eq_eq_iff {a b : Version} :
    semanticCompare a b = .eq ↔ a.semantic = b.semantic ∧ (a.semantic = none → a = b) := by
  rw [semanticCompare_eq, compareLex_eq_eq, compareOn, Std.compare_eq_iff_eq, compareOn, Std.compare_eq_iff_eq]
  refine and_congr_right fun hsame => ?_
  unfold bareText
  rw [← hsame]
  cases a.semantic with
  | some x => simp
  | none => simp [Version.ext_iff]

/-- What is not level by value is in the same order by value as in the linear order. -/
theorem compare_of_semanticCompare_ne {a b : Version} (h : semanticCompare a b ≠ .eq) : compare a b = semanticCompare a b := by
  unfold semanticCompare at h ⊢
  unfold compare compareLex compareOn
  cases ha : a.semantic with
  | none => rfl
  | some x =>
    cases hb : b.semantic with
    | none => rfl
    | some y =>
      rw [ha, hb] at h
      dsimp only at h ⊢
      have hvalues : Ord.compare (some x) (some y) = SemanticVersion.compare x y := rfl
      rw [hvalues]
      cases hc : SemanticVersion.compare x y with
      | lt | gt => rfl
      | eq => exact absurd hc h

/-- Versions that are in order are in order by value. -/
theorem isLE_compare_semantic {a b : Version} (h : (compare a b).isLE = true) :
    (Ord.compare a.semantic b.semantic).isLE = true := by
  have hthen : compare a b = (Ord.compare a.semantic b.semantic).then (Ord.compare a.source b.source) := rfl
  rw [hthen] at h
  cases hc : Ord.compare a.semantic b.semantic with
  | lt | eq => rfl
  | gt =>
    rw [hc] at h
    nomatch h

/-- Between two versions of one value lie only versions of that value. -/
theorem semantic_eq_of_between {a b c : Version} (hab : (compare a b).isLE = true) (hbc : (compare b c).isLE = true)
    (hac : a.semantic = c.semantic) : b.semantic = a.semantic := by
  have hle := isLE_compare_semantic hbc
  rw [← hac] at hle
  exact Std.LawfulEqOrd.eq_of_compare (Std.OrientedCmp.isLE_antisymm hle (isLE_compare_semantic hab))

theorem ascending_pairwise (vs : List Version) : (ascending vs).Pairwise fun a b => (compare a b).isLE = true := by
  refine List.pairwise_mergeSort (fun _ _ _ => Std.TransCmp.isLE_trans) (fun a b => ?_) vs
  rcases (ordersTotally_of_transCmp compare).total a b with h | h <;> simp [h]

/-- Where versions are in order, those of one value lie side by side. -/
theorem filter_semantic_isInfix (vs : List Version) (value : Option SemanticVersion) :
    ((ascending vs).filter fun v => decide (v.semantic = value)) <:+: ascending vs := by
  have hsplit := eq_append_sideOf semantic value ((ascending_pairwise vs).imp isLE_compare_semantic)
  have hlevel : sideOf semantic value .eq (ascending vs) = (ascending vs).filter fun v => decide (v.semantic = value) := by
    refine List.filter_congr fun v _ => ?_
    rw [Bool.eq_iff_iff, beq_iff_eq, decide_eq_true_iff]
    exact Std.compare_eq_iff_eq
  rw [hlevel] at hsplit
  exact ⟨_, _, hsplit.symm⟩

/-- The two orders of versions. The linear one is total, level for no two texts, and has every version with a value above every
version without one. The one by value is total too, and the linear order refines it, so that versions of one value lie side by side.
Values come in the order of the rules of semantic versions, builds included. -/
theorem versions_ordered :
    OrdersTotally compare ∧
    (∀ a b, (compare a b).isLE = true → (compare b a).isLE = true → a = b) ∧
    (∀ a b, (compare a b = .eq ↔ a.source = b.source) ∧ (compare a b = .eq ↔ a = b)) ∧
    (∀ a b x, a.semantic = some x → b.semantic = none → compare a b = .gt) ∧
    OrdersTotally semanticCompare ∧
    (∀ a b, semanticCompare a b = .eq ↔ a.semantic = b.semantic ∧ (a.semantic = none → a = b)) ∧
    (∀ a b, semanticCompare a b ≠ .eq → compare a b = semanticCompare a b) ∧
    (∀ a b c, (compare a b).isLE = true → (compare b c).isLE = true → a.semantic = c.semantic → b.semantic = a.semantic) ∧
    (∀ vs value, ((ascending vs).filter fun v => decide (v.semantic = value)) <:+: ascending vs) ∧
    ∀ a b x y, a.semantic = some x → b.semantic = some y → (semanticCompare a b = .lt ↔ x.Precedes y) := by
  refine ⟨ordersTotally_of_transCmp compare, fun a b hab hba => ?_, fun a b => ?_, fun a b x => compare_eq_gt_of_semantic,
    ordersTotally_of_transCmp semanticCompare, fun a b => semanticCompare_eq_eq_iff, fun a b => compare_of_semanticCompare_ne,
    fun a b c => semantic_eq_of_between, filter_semantic_isInfix, fun a b x y ha hb => ?_⟩
  · exact Std.LawfulEqCmp.eq_of_compare (Std.OrientedCmp.isLE_antisymm hab hba)
  · have heq : compare a b = .eq ↔ a = b := Std.LawfulEqCmp.compare_eq_iff_eq
    exact ⟨by rw [heq, Version.ext_iff], heq⟩
  · have hvalues : semanticCompare a b = SemanticVersion.compare x y := by
      unfold semanticCompare
      rw [ha, hb]
    rw [hvalues]
    exact SemanticVersion.compare_eq_lt_iff

/-- Versions without a value come first, pre-releases before the release, texts of one value together, builds by their numbers. -/
example :
    (["nightly", "1.0.0-rc.2", "1.0.0-rc.10", "1.0", "v1.0.0", "1.0.0+2", "1.0.0+02", "1.0.0+10"].map Version.mk).Pairwise
      fun a b => compare a b = .lt := by
  decide +kernel

end Version

end VersionChain
