import Mathlib.Data.List.Basic
import VersionChain.Proofs.Numerals

/-!
# How versions with a value are written

A version has a semantic value just if it is a numeral of plain numbers with at most two suffixes: first `-` and a pre-release,
then `+` and a build, each of them identifiers joined by points. The value shows neither the `v` in front nor the numbers that are
left out, so one value has several spellings. One of these is its canonical text.
-/

namespace VersionChain

/-! ## Suffixes -/

namespace Identifier

/-- Letters, digits and hyphens, at least one of them. -/
def IsValid (i : Identifier) : Prop := i.text.toList ≠ [] ∧ ∀ c ∈ i.text.toList, isIdentifierChar c = true

/-- An identifier that has no leading zero if it is numeric. -/
def IsValidPreRelease (i : Identifier) : Prop :=
  i.IsValid ∧ ¬(i.isNumeric = true ∧ 1 < i.text.toList.length ∧ i.text.toList.head? = some '0')

variable {i : Identifier} {is : List Identifier} {cs : List Char}

theorem ofBuild?_eq_some_iff : ofBuild? cs = some i ↔ i.text.toList = cs ∧ i.IsValid := by
  unfold ofBuild? IsValid
  constructor
  · intro h
    split at h
    · rename_i hcs
      obtain rfl := Option.some.inj h
      rw [String.toList_ofList]
      simpa using hcs
    · nomatch h
  · rintro ⟨rfl, hne, hchars⟩
    rw [if_pos (by simpa [hne] using hchars), String.ofList_toList]

theorem ofPreRelease?_eq_some_iff : ofPreRelease? cs = some i ↔ i.text.toList = cs ∧ i.IsValidPreRelease := by
  have hzero : (cs.all Char.isDigit && decide (1 < cs.length) && cs.head? == some '0') = true ↔
      cs.all Char.isDigit = true ∧ 1 < cs.length ∧ cs.head? = some '0' := by
    simp [and_assoc]
  unfold ofPreRelease? IsValidPreRelease isNumeric
  rw [if_congr hzero rfl rfl]
  constructor
  · intro h
    split at h
    · nomatch h
    · rename_i hlead
      obtain ⟨rfl, hvalid⟩ := ofBuild?_eq_some_iff.mp h
      exact ⟨rfl, hvalid, hlead⟩
  · rintro ⟨rfl, hvalid, hlead⟩
    rw [if_neg hlead]
    exact ofBuild?_eq_some_iff.mpr ⟨rfl, hvalid⟩

/-- A valid identifier holds none of the characters that stand between the parts of a version. -/
theorem IsValid.not_mem (h : i.IsValid) {c : Char} (hc : isIdentifierChar c = false) : c ∉ i.text.toList := by
  intro hmem
  nomatch hc.symm.trans (h.2 c hmem)

theorem toList_joined (is : List Identifier) : (joined is).toList = ['.'].intercalate (is.map (·.text.toList)) := by
  rw [joined, String.toList_intercalate, List.map_map]
  rfl

/-- What is joined of valid identifiers holds their characters and points. -/
theorem not_mem_joined (h : ∀ i ∈ is, i.IsValid) {c : Char} (hc : isIdentifierChar c = false) (hpoint : c ≠ '.') :
    c ∉ (joined is).toList := by
  rw [toList_joined]
  intro hmem
  rcases Numeral.mem_intercalate_point hmem with heq | ⟨r, hr, hcr⟩
  · exact hpoint heq
  · obtain ⟨i, hi, rfl⟩ := List.mem_map.mp hr
    exact (h i hi).not_mem hc hcr

/-- A reader of texts one by one reads a list of texts if it reads each of them. -/
theorem mapM_eq_some_iff {one : List Char → Option Identifier} {Valid : Identifier → Prop}
    (hone : ∀ {cs i}, one cs = some i ↔ i.text.toList = cs ∧ Valid i) {texts : List (List Char)} :
    texts.mapM one = some is ↔ is.map (·.text.toList) = texts ∧ ∀ i ∈ is, Valid i := by
  induction texts generalizing is with
  | nil =>
    rw [List.map_eq_nil_iff]
    constructor
    · intro h
      obtain rfl : [] = is := Option.some.inj h
      exact ⟨rfl, nofun⟩
    · rintro ⟨rfl, -⟩
      rfl
  | cons cs texts ih =>
    rw [List.mapM_cons]
    simp only [bind, Option.bind_eq_some_iff, pure, Option.some.injEq, hone, ih]
    constructor
    · rintro ⟨i, ⟨hi, hvalid⟩, is, ⟨his, hvalids⟩, rfl⟩
      exact ⟨by rw [List.map_cons, hi, his], List.forall_mem_cons.mpr ⟨hvalid, hvalids⟩⟩
    · rintro ⟨htexts, hvalids⟩
      cases is with
      | nil => nomatch htexts
      | cons i is =>
        obtain ⟨hi, his⟩ := List.cons.inj htexts
        obtain ⟨hvalid, hvalids⟩ := List.forall_mem_cons.mp hvalids
        exact ⟨i, ⟨hi, hvalid⟩, is, ⟨his, hvalids⟩, rfl⟩

/-- A text is read as a sequence of identifiers if it is what they are joined to, and there is one at least. -/
theorem sequence?_eq_some_iff {one : List Char → Option Identifier} {Valid : Identifier → Prop}
    (hone : ∀ {cs i}, one cs = some i ↔ i.text.toList = cs ∧ Valid i) (hvalid : ∀ {i}, Valid i → i.IsValid) :
    sequence? one cs = some is ↔ is ≠ [] ∧ (joined is).toList = cs ∧ ∀ i ∈ is, Valid i := by
  unfold sequence?
  rw [mapM_eq_some_iff hone, toList_joined]
  constructor
  · rintro ⟨hsplit, hvalids⟩
    have hne : is ≠ [] := by
      rintro rfl
      exact List.splitOn_ne_nil '.' cs hsplit.symm
    exact ⟨hne, by rw [hsplit, List.intercalate_splitOn], hvalids⟩
  · rintro ⟨hne, rfl, hvalids⟩
    refine ⟨(List.splitOn_intercalate '.' (fun r hr => ?_) (by simpa using hne)).symm, hvalids⟩
    obtain ⟨i, hi, rfl⟩ := List.mem_map.mp hr
    exact (hvalid (hvalids i hi)).not_mem rfl

theorem sequence?_build_iff :
    sequence? ofBuild? cs = some is ↔ is ≠ [] ∧ (joined is).toList = cs ∧ ∀ i ∈ is, i.IsValid :=
  sequence?_eq_some_iff ofBuild?_eq_some_iff id

theorem sequence?_preRelease_iff :
    sequence? ofPreRelease? cs = some is ↔ is ≠ [] ∧ (joined is).toList = cs ∧ ∀ i ∈ is, i.IsValidPreRelease :=
  sequence?_eq_some_iff ofPreRelease?_eq_some_iff And.left

end Identifier

namespace SemanticVersion

variable {early build : List Identifier} {cs : List Char}

theorem toList_marked {mark : String} {c : Char} (hmark : mark.toList = [c]) {is : List Identifier} (h : is ≠ []) :
    (marked mark is).toList = c :: (Identifier.joined is).toList := by
  cases is with
  | nil => exact absurd rfl h
  | cons i is => rw [marked.eq_2 mark (i :: is) h, String.toList_append, hmark, List.singleton_append]

/-- A text that is read as suffixes is the text of what is read. -/
theorem suffixes?_sound (h : suffixes? cs = some (early, build)) :
    cs = (marked "-" early ++ marked "+" build).toList ∧ (∀ i ∈ early, i.IsValidPreRelease) ∧ ∀ i ∈ build, i.IsValid := by
  rw [String.toList_append]
  unfold suffixes? at h
  split at h
  · obtain ⟨rfl, rfl⟩ := Prod.mk.inj (Option.some.inj h)
    exact ⟨rfl, nofun, nofun⟩
  · simp only [bind, Option.bind_eq_some_iff, pure, Option.some.injEq, Prod.mk.injEq] at h
    obtain ⟨_, hbuild, rfl, rfl⟩ := h
    obtain ⟨hne, rfl, hvalid⟩ := Identifier.sequence?_build_iff.mp hbuild
    exact ⟨(toList_marked rfl hne).symm, nofun, hvalid⟩
  · rename_i rest
    simp only [bind, Option.bind_eq_some_iff] at h
    obtain ⟨is, hearly, h⟩ := h
    obtain ⟨hne, hjoined, hvalid⟩ := Identifier.sequence?_preRelease_iff.mp hearly
    have hrest : '-' :: rest = (marked "-" is).toList ++ rest.dropWhile (· != '+') := by
      rw [toList_marked (c := '-') rfl hne, hjoined, List.cons_append, List.takeWhile_append_dropWhile]
    have hplus := List.head?_dropWhile_not (· != '+') rest
    rw [hrest]
    generalize rest.dropWhile (· != '+') = tail at h hplus
    cases tail with
    | nil =>
      obtain ⟨rfl, rfl⟩ := Prod.mk.inj (Option.some.inj h)
      exact ⟨rfl, hvalid, nofun⟩
    | cons c tail =>
      obtain rfl : c = '+' := by simpa using hplus
      simp only [Option.bind_eq_some_iff, pure, Option.some.injEq, Prod.mk.injEq] at h
      obtain ⟨_, hbuild, rfl, rfl⟩ := h
      obtain ⟨hne', rfl, hvalid'⟩ := Identifier.sequence?_build_iff.mp hbuild
      exact ⟨by rw [toList_marked (c := '+') rfl hne'], hvalid, hvalid'⟩
  · nomatch h

/-- The text of valid suffixes is read as these. -/
theorem suffixes?_complete (hearly : ∀ i ∈ early, i.IsValidPreRelease) (hbuild : ∀ i ∈ build, i.IsValid) :
    suffixes? (marked "-" early ++ marked "+" build).toList = some (early, build) := by
  have hread : build ≠ [] → Identifier.sequence? Identifier.ofBuild? (Identifier.joined build).toList = some build :=
    fun hne => Identifier.sequence?_build_iff.mpr ⟨hne, rfl, hbuild⟩
  rw [String.toList_append]
  by_cases he : early = []
  · subst he
    by_cases hb : build = []
    · subst hb
      rfl
    · rw [toList_marked (c := '+') rfl hb]
      simp [marked, suffixes?, hread hb]
  · have hread' : Identifier.sequence? Identifier.ofPreRelease? (Identifier.joined early).toList = some early :=
      Identifier.sequence?_preRelease_iff.mpr ⟨he, rfl, hearly⟩
    have hplus : ∀ c ∈ (Identifier.joined early).toList, (c != '+') = true := fun c hc =>
      bne_iff_ne.mpr fun heq => Identifier.not_mem_joined (fun i hi => (hearly i hi).1) (c := '+') rfl (by decide) (heq ▸ hc)
    rw [toList_marked (c := '-') rfl he, List.cons_append]
    by_cases hb : build = []
    · subst hb
      simp only [marked, String.toList_empty, List.append_nil, suffixes?, List.takeWhile_eq_self_iff.mpr hplus,
        List.dropWhile_eq_nil_iff.mpr hplus, hread']
      rfl
    · rw [toList_marked (c := '+') rfl hb]
      simp [suffixes?, List.takeWhile_append_of_pos hplus, List.dropWhile_append_of_pos hplus, hread', hread hb]

end SemanticVersion

/-! ## Numerals -/

namespace SemanticVersion

variable {cs r : List Char}

/-- A run is read as a number if it consists of digits and is plain. -/
theorem number?_eq_some_iff {k : Nat} :
    number? r = some k ↔ (r ≠ [] ∧ r.all Char.isDigit = true) ∧ Identifier.IsPlain r ∧ Identifier.value r = k := by
  by_cases h : r ≠ [] ∧ r.all Char.isDigit = true
  · rw [number?_eq h.1 h.2, and_iff_right h]
    split <;> simp [*]
  · have hrun : (r.isEmpty || !r.all Char.isDigit) = true := by
      by_contra hcon
      exact h (by simpa using hcon)
    rw [number?, if_pos hrun]
    exact iff_of_false nofun fun hk => h hk.1

/-- What is read as a core is split into one to three numbers. -/
theorem forall_of_core? {t : Nat × Nat × Nat} (h : core? cs = some t) :
    (cs.splitOn '.').length ≤ 3 ∧ ∀ r ∈ cs.splitOn '.', ∃ k, number? r = some k := by
  unfold core? at h
  split at h <;> rename_i hsplit
  · simp only [bind, Option.bind_eq_some_iff] at h
    obtain ⟨a, ha, -⟩ := h
    rw [hsplit]
    exact ⟨by simp, by simpa using ⟨a, ha⟩⟩
  · simp only [bind, Option.bind_eq_some_iff] at h
    obtain ⟨a, ha, b, hb, -⟩ := h
    rw [hsplit]
    exact ⟨by simp, by simpa using ⟨⟨a, ha⟩, b, hb⟩⟩
  · simp only [bind, Option.bind_eq_some_iff] at h
    obtain ⟨a, ha, b, hb, c, hc, -⟩ := h
    rw [hsplit]
    exact ⟨by simp, by simpa using ⟨⟨a, ha⟩, ⟨b, hb⟩, c, hc⟩⟩
  · nomatch h

/-- A text that is read as a core is that of a plain numeral. -/
theorem exists_numeral_of_core? {t : Nat × Nat × Nat} (h : core? cs = some t) (marked : Bool) :
    ∃ n : Numeral, n.marked = marked ∧ n.core = cs ∧ n.IsPlain ∧ t = (n.number 0, n.number 1, n.number 2) := by
  obtain ⟨hlength, hruns⟩ := forall_of_core? h
  have hdigits : ∀ r ∈ cs.splitOn '.', r ≠ [] ∧ r.all Char.isDigit = true := by
    intro r hr
    obtain ⟨k, hk⟩ := hruns r hr
    exact (number?_eq_some_iff.mp hk).1
  let n : Numeral := ⟨marked, cs.splitOn '.', List.splitOn_ne_nil '.' cs, hlength, fun r hr => (hdigits r hr).1,
    fun r hr => (hdigits r hr).2⟩
  have hcore : n.core = cs := List.intercalate_splitOn '.'
  rw [← hcore, Numeral.core?_core] at h
  split at h
  · rename_i hplain
    exact ⟨n, rfl, hcore, hplain, (Option.some.inj h).symm⟩
  · nomatch h

end SemanticVersion

theorem Numeral.toList_source (n : Numeral) :
    n.version.source.toList = if n.marked then 'v' :: n.core else n.core :=
  String.toList_ofList

/-! ## Spellings -/

/-- A version as it is written: a numeral of plain numbers, a pre-release and a build. What is left out is empty. -/
structure Spelling where
  numeral : Numeral
  preRelease : List Identifier
  build : List Identifier
  isPlain : numeral.IsPlain
  preRelease_isValid : ∀ i ∈ preRelease, i.IsValidPreRelease
  build_isValid : ∀ i ∈ build, i.IsValid

namespace Spelling

/-- The suffixes. -/
def suffix (w : Spelling) : String := SemanticVersion.marked "-" w.preRelease ++ SemanticVersion.marked "+" w.build

/-- The version that is written so. -/
def version (w : Spelling) : Version := ⟨w.numeral.version.source ++ w.suffix⟩

/-- The semantic version that is written so. -/
def value (w : Spelling) : SemanticVersion := { w.numeral.value with preRelease := w.preRelease, build := w.build }

/-- The suffixes begin with a mark that ends the core, if there are any. -/
theorem endsCore_of_suffix (w : Spelling) {c : Char} {cs : List Char} (h : w.suffix.toList = c :: cs) :
    SemanticVersion.endsCore c = true := by
  rw [suffix, String.toList_append] at h
  by_cases he : w.preRelease = []
  · by_cases hb : w.build = []
    · rw [he, hb] at h
      nomatch h
    · rw [he, SemanticVersion.toList_marked (c := '+') rfl hb] at h
      obtain ⟨rfl, -⟩ := List.cons.inj h
      rfl
  · rw [SemanticVersion.toList_marked (c := '-') rfl he] at h
    obtain ⟨rfl, -⟩ := List.cons.inj h
    rfl

theorem ofText?_eq (w : Spelling) : SemanticVersion.ofText? (w.numeral.core ++ w.suffix.toList) = some w.value := by
  have hsuffix : w.suffix.toList.takeWhile (!SemanticVersion.endsCore ·) = [] ∧
      w.suffix.toList.dropWhile (!SemanticVersion.endsCore ·) = w.suffix.toList := by
    have hends : ∀ c cs, w.suffix.toList = c :: cs → SemanticVersion.endsCore c = true := fun _ _ => endsCore_of_suffix w
    generalize w.suffix.toList = cs at hends
    cases cs with
    | nil => exact ⟨rfl, rfl⟩
    | cons c cs =>
      have hc : ¬(!SemanticVersion.endsCore c) = true := by simp [hends c cs rfl]
      exact ⟨List.takeWhile_cons_of_neg hc, List.dropWhile_cons_of_neg hc⟩
  have hcore := Numeral.not_endsCore_of_mem_core (n := w.numeral)
  unfold SemanticVersion.ofText?
  rw [List.takeWhile_append_of_pos hcore, List.dropWhile_append_of_pos hcore, hsuffix.1, hsuffix.2, List.append_nil,
    Numeral.core?_core, if_pos w.isPlain, suffix,
    SemanticVersion.suffixes?_complete w.preRelease_isValid w.build_isValid]
  rfl

/-- A spelling is read as its value. -/
theorem semantic_version (w : Spelling) : w.version.semantic = some w.value := by
  rw [← ofText?_eq w]
  unfold Version.semantic version
  rw [String.toList_append, Numeral.toList_source]
  cases w.numeral.marked with
  | true => rfl
  | false =>
    rw [if_neg Bool.false_ne_true]
    split
    · -- neither a numeral nor a suffix begins with the mark
      rename_i rest hv
      rcases List.append_eq_cons_iff.mp hv with ⟨-, hsuffix⟩ | ⟨_, hcore, -⟩
      · nomatch endsCore_of_suffix w hsuffix
      · rcases Numeral.isDigit_or_eq_point_of_mem_core (hcore ▸ List.mem_cons_self) with h | h <;> nomatch h
    · rfl

/-- What is read as a semantic version is a spelling of it. -/
theorem exists_of_ofText? {cs : List Char} {x : SemanticVersion} (h : SemanticVersion.ofText? cs = some x) (marked : Bool) :
    ∃ w : Spelling, w.numeral.marked = marked ∧ w.numeral.core ++ w.suffix.toList = cs ∧ w.value = x := by
  unfold SemanticVersion.ofText? at h
  simp only [bind, Option.bind_eq_some_iff, pure, Option.some.injEq] at h
  obtain ⟨⟨a, b, c⟩, hcore, ⟨early, build⟩, hsuffixes, rfl⟩ := h
  obtain ⟨n, hmarked, hn, hplain, ht⟩ := SemanticVersion.exists_numeral_of_core? hcore marked
  obtain ⟨htext, hearly, hbuild⟩ := SemanticVersion.suffixes?_sound hsuffixes
  obtain ⟨rfl, rfl, rfl⟩ : a = n.number 0 ∧ b = n.number 1 ∧ c = n.number 2 := by simpa using ht
  refine ⟨⟨n, early, build, hplain, hearly, hbuild⟩, hmarked, ?_, rfl⟩
  rw [suffix, ← htext, hn, List.takeWhile_append_dropWhile]

/-- A version has a value if it is a spelling of that value. -/
theorem semantic_eq_some_iff {v : Version} {x : SemanticVersion} :
    v.semantic = some x ↔ ∃ w : Spelling, w.version = v ∧ w.value = x := by
  constructor
  · intro h
    have hread : ∃ (marked : Bool) (cs : List Char), SemanticVersion.ofText? cs = some x ∧ v.source.toList = if marked then 'v' :: cs else cs := by
      unfold Version.semantic at h
      split at h
      · rename_i rest hsource
        exact ⟨true, rest, h, hsource⟩
      · exact ⟨false, v.source.toList, h, rfl⟩
    obtain ⟨marked, cs, hx, hsource⟩ := hread
    obtain ⟨w, rfl, rfl, hvalue⟩ := exists_of_ofText? hx marked
    refine ⟨w, Version.ext (String.toList_inj.mp ?_), hvalue⟩
    rw [version, String.toList_append, Numeral.toList_source, hsource]
    split <;> rfl
  · rintro ⟨w, rfl, rfl⟩
    exact semantic_version w

/-! ## Other spellings of the same value -/

/-- The same suffixes after another numeral. -/
def withNumeral (w : Spelling) (n : Numeral) (h : n.IsPlain) : Spelling := { w with numeral := n, isPlain := h }

/-- What counts of the numeral is its numbers. -/
theorem value_withNumeral (w : Spelling) {n : Numeral} (h : n.IsPlain) (hsame : n.numbers = w.numeral.numbers) :
    (w.withNumeral n h).value = w.value := by
  obtain ⟨h₀, h₁, h₂⟩ : n.number 0 = w.numeral.number 0 ∧ n.number 1 = w.numeral.number 1 ∧ n.number 2 = w.numeral.number 2 := by
    simpa [Numeral.numbers] using hsame
  unfold value withNumeral Numeral.value
  rw [h₀, h₁, h₂]

/-- A version with another numeral of the same numbers has the same value. -/
theorem semantic_withNumeral (w : Spelling) {n : Numeral} (h : n.IsPlain) (hsame : n.numbers = w.numeral.numbers) :
    (⟨n.version.source ++ w.suffix⟩ : Version).semantic = some w.value := by
  rw [← value_withNumeral w h hsame]
  exact semantic_version (w.withNumeral n h)

end Spelling

namespace Numeral

/-- The same numeral with a `v` in front. -/
def withMark (n : Numeral) : Numeral := { n with marked := true }

theorem source_withMark {n : Numeral} (h : n.marked = false) : n.withMark.version.source = "v" ++ n.version.source := by
  rw [← String.toList_inj, String.toList_append, toList_source, toList_source, h]
  rfl

/-- A point and a zero for each number that is left out. -/
def padding (n : Numeral) : String := String.join (List.replicate (3 - n.runs.length) ".0")

/-- The same numeral with a zero for each number that is left out. -/
def padded (n : Numeral) : Numeral where
  marked := n.marked
  runs := n.runs ++ List.replicate (3 - n.runs.length) ['0']
  runs_ne_nil := List.append_ne_nil_of_left_ne_nil n.runs_ne_nil _
  length_runs_le := by
    have := n.length_runs_le
    rw [List.length_append, List.length_replicate]
    omega
  ne_nil r hr := by
    rcases List.mem_append.mp hr with hr | hr
    · exact n.ne_nil r hr
    · rw [List.eq_of_mem_replicate hr]
      exact List.cons_ne_nil '0' []
  isDigit r hr := by
    rcases List.mem_append.mp hr with hr | hr
    · exact n.isDigit r hr
    · rw [List.eq_of_mem_replicate hr]
      rfl

theorem IsPlain.padded {n : Numeral} (h : n.IsPlain) : n.padded.IsPlain := by
  intro r hr
  rcases List.mem_append.mp hr with hr | hr
  · exact h r hr
  · rw [List.eq_of_mem_replicate hr]
    decide

/-- A numeral has one, two or three runs. -/
theorem runs_cases (n : Numeral) : (∃ a, n.runs = [a]) ∨ (∃ a b, n.runs = [a, b]) ∨ ∃ a b c, n.runs = [a, b, c] := by
  have hne := n.runs_ne_nil
  have hlength := n.length_runs_le
  match hruns : n.runs with
  | [] => exact absurd hruns hne
  | [a] => exact Or.inl ⟨a, rfl⟩
  | [a, b] => exact Or.inr (Or.inl ⟨a, b, rfl⟩)
  | [a, b, c] => exact Or.inr (Or.inr ⟨a, b, c, rfl⟩)
  | _ :: _ :: _ :: _ :: _ =>
    rw [hruns] at hlength
    simp only [List.length_cons] at hlength
    omega

theorem numbers_padded (n : Numeral) : n.padded.numbers = n.numbers := by
  unfold numbers number padded
  rcases runs_cases n with ⟨a, h⟩ | ⟨a, b, h⟩ | ⟨a, b, c, h⟩ <;> simp only [h] <;> rfl

theorem core_padded (n : Numeral) : n.padded.core = n.core ++ n.padding.toList := by
  unfold core padding padded
  rcases runs_cases n with ⟨a, h⟩ | ⟨a, b, h⟩ | ⟨a, b, c, h⟩ <;> simp only [h] <;> simp [List.replicate]

theorem source_padded (n : Numeral) : n.padded.version.source = n.version.source ++ n.padding := by
  have hmarked : n.padded.marked = n.marked := rfl
  rw [← String.toList_inj, String.toList_append, toList_source, toList_source, core_padded, hmarked]
  cases n.marked <;> rfl

end Numeral

/-! ## The canonical text -/

namespace Identifier

theorem head?_toDigits_ne {k : Nat} (h : k ≠ 0) : (Nat.toDigits 10 k).head? ≠ some '0' := by
  induction k using Nat.strong_induction_on with
  | _ k ih =>
    rw [Nat.toDigits_eq_if (by decide)]
    split
    · simpa [Nat.digitChar_eq_zero] using h
    · rename_i hk
      rw [List.head?_append_of_ne_nil _ Nat.toDigits_ne_nil]
      exact ih (k / 10) (by omega) (by omega)

/-- The digits of a number are a plain run. -/
theorem isPlain_toDigits {k : Nat} (h : k < UInt64.size) : IsPlain (Nat.toDigits 10 k) := by
  refine ⟨fun ⟨hlength, hzero⟩ => ?_, ?_⟩
  · by_cases hk : k = 0
    · subst hk
      nomatch hlength
    · exact head?_toDigits_ne hk hzero
  · exact (Nat.ofDigitChars_ten_toDigits).trans_lt h

end Identifier

namespace SemanticVersion

/-- The three numbers, written with their digits. -/
def numeral (x : SemanticVersion) : Numeral where
  marked := false
  runs := [Nat.toDigits 10 x.major, Nat.toDigits 10 x.minor, Nat.toDigits 10 x.patch]
  runs_ne_nil := List.cons_ne_nil _ _
  length_runs_le := Nat.le_refl 3
  ne_nil r hr := by
    simp only [List.mem_cons, List.not_mem_nil, or_false] at hr
    rcases hr with rfl | rfl | rfl <;> exact Nat.toDigits_ne_nil
  isDigit r hr := by
    have hdigits : ∀ k, (Nat.toDigits 10 k).all Char.isDigit = true := fun k =>
      List.all_eq_true.mpr fun _ hc => Nat.isDigit_of_mem_toDigits (by decide) (by decide) hc
    simp only [List.mem_cons, List.not_mem_nil, or_false] at hr
    rcases hr with rfl | rfl | rfl <;> exact hdigits _

theorem numbers_numeral (x : SemanticVersion) : x.numeral.numbers = [x.major, x.minor, x.patch] := by
  have hvalue : ∀ k, Identifier.value (Nat.toDigits 10 k) = k := fun k => Nat.ofDigitChars_ten_toDigits
  unfold Numeral.numbers Numeral.number numeral
  simp [hvalue]

theorem source_numeral (x : SemanticVersion) :
    x.numeral.version.source = toString x.major ++ "." ++ toString x.minor ++ "." ++ toString x.patch := by
  rw [← String.toList_inj, Numeral.toList_source]
  simp [numeral, Numeral.core, Nat.toString_eq_repr]

/-- The canonical text is a spelling without a mark. -/
theorem text_eq (x : SemanticVersion) :
    x.text = x.numeral.version.source ++ (marked "-" x.preRelease ++ marked "+" x.build) := by
  rw [text, source_numeral, String.append_assoc]

end SemanticVersion

namespace Numeral

/-- The numbers of a plain numeral are below the limit. -/
theorem IsPlain.number_lt {n : Numeral} (h : n.IsPlain) (i : Nat) : n.number i < UInt64.size := by
  unfold number
  rw [List.getD_eq_getElem?_getD, List.getElem?_map]
  cases hr : n.runs[i]? with
  | none => decide
  | some r => exact (h r (List.mem_of_getElem? hr)).2

/-- The numbers of a plain numeral can be written plainly with their digits. -/
theorem IsPlain.canonical {n : Numeral} (h : n.IsPlain) {x : SemanticVersion}
    (hx : [x.major, x.minor, x.patch] = n.numbers) : x.numeral.IsPlain := by
  obtain ⟨hmajor, hminor, hpatch⟩ : x.major = n.number 0 ∧ x.minor = n.number 1 ∧ x.patch = n.number 2 := by
    simpa [numbers] using hx
  intro r hr
  simp only [SemanticVersion.numeral, List.mem_cons, List.not_mem_nil, or_false] at hr
  rcases hr with rfl | rfl | rfl
  · exact Identifier.isPlain_toDigits (hmajor ▸ h.number_lt 0)
  · exact Identifier.isPlain_toDigits (hminor ▸ h.number_lt 1)
  · exact Identifier.isPlain_toDigits (hpatch ▸ h.number_lt 2)

end Numeral

namespace Version

/-- The versions with a value are the spellings, and a spelling is read as its value. A `v` in front, points and zeros for the
numbers that are left out, and the canonical text of the value all make spellings of the same value. -/
theorem spellings_read :
    (∀ (v : Version) (x : SemanticVersion), v.semantic = some x ↔ ∃ w : Spelling, w.version = v ∧ w.value = x) ∧
    ∀ w : Spelling,
      (w.numeral.marked = false → (⟨"v" ++ w.version.source⟩ : Version).semantic = some w.value) ∧
      (⟨w.numeral.version.source ++ w.numeral.padding ++ w.suffix⟩ : Version).semantic = some w.value ∧
      (⟨w.value.text⟩ : Version).semantic = some w.value ∧
      semanticCompare w.version ⟨w.value.text⟩ = .eq := by
  refine ⟨fun v x => Spelling.semantic_eq_some_iff, fun w => ?_⟩
  have hcanonical : (⟨w.value.text⟩ : Version).semantic = some w.value := by
    rw [SemanticVersion.text_eq]
    exact w.semantic_withNumeral (w.isPlain.canonical rfl) (SemanticVersion.numbers_numeral w.value)
  refine ⟨fun hmarked => ?_, ?_, hcanonical, ?_⟩
  · have hsource : "v" ++ w.version.source = w.numeral.withMark.version.source ++ w.suffix := by
      rw [Numeral.source_withMark hmarked, String.append_assoc]
      rfl
    rw [hsource]
    exact w.semantic_withNumeral w.isPlain rfl
  · rw [← Numeral.source_padded]
    exact w.semantic_withNumeral w.isPlain.padded (Numeral.numbers_padded w.numeral)
  · rw [semanticCompare_eq_eq_iff, Spelling.semantic_version, hcanonical]
    exact ⟨rfl, nofun⟩

/-- The hyphen of a build begins no pre-release, and what is left out of the core counts as zero. -/
example :
    (⟨"v1.2+a-1"⟩ : Version).semantic.map SemanticVersion.text = some "1.2.0+a-1" ∧
      (⟨"1.02"⟩ : Version).semantic = none := by
  decide +kernel

end Version

end VersionChain
