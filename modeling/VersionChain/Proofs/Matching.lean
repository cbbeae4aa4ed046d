import VersionChain.Proofs.Consulted
import VersionChain.Proofs.Soundness
import VersionChain.Proofs.Verdicts

/-!
# Which versions of a listing are matched

The matches of the standard policy among the versions of a listing. A selector of several versions matches all that are admitted,
each as often as it is listed. A selector of one version matches at most one: the newest that is selected, unless metadata that is
needed fails before the walk comes to it.
-/

namespace VersionChain

namespace Policy

variable {matcher : Matcher} {rules : Rules} {request : Request} {versions : List String} {answer : String → LookupOutcome}

/-- The versions of a listing that the standard policy matches, in the order of the verdicts. -/
def matched (rules : Rules) (request : Request) (answer : String → LookupOutcome) (versions : List String) : List String :=
  ((standardSelect rules (Candidate.offer request versions) request).run (versions.map answer)).1.filterMap Verdict.matched?

theorem matching_standardDigest (rules : Rules) (request : Request) (answer : String → LookupOutcome) (versions : List String)
    (r : Option Lookup) :
    (standardDigest rules request versions answer r).matching = matched rules request answer versions :=
  Digest.matching_play answer versions _ { result := r }

/-- A selector that cannot be read matches nothing. -/
theorem matched_of_error {e : SelectorError} (hsel : Matcher.ofSelector request.selector = .error e) :
    matched rules request answer versions = [] := by
  rw [← matching_standardDigest rules request answer versions none, standardDigest_error hsel]

/-- A selector of several versions matches what is admitted, as often as it is listed. -/
theorem matched_perm (hsel : Matcher.ofSelector request.selector = .ok matcher) (hu : matcher.isUnique = false) :
    (matched rules request answer versions).Perm (versions.filter fun v => admits matcher rules ⟨v⟩) := by
  rw [← matching_standardDigest rules request answer versions none]
  exact matching_standardDigest_several hsel hu none

/-- A selector of one version matches one at most. -/
theorem matched_of_unique (hsel : Matcher.ofSelector request.selector = .ok matcher) (hu : matcher.isUnique = true)
    (rules : Rules) (answer : String → LookupOutcome) (versions : List String) :
    matched rules request answer versions = [] ∨ ∃ v ∈ versions, matched rules request answer versions = [v] := by
  rw [← matching_standardDigest rules request answer versions none]
  obtain ⟨looked, -, hends⟩ := standardDigest_one hsel hu rules versions answer none
  generalize standardDigest rules request versions answer none = e at hends
  cases hends with
  | nothing => exact Or.inl rfl
  | failed fails => exact Or.inl rfl
  | @matched c mem admitted fits =>
    exact Or.inr ⟨_, List.mem_of_getElem? (placed_newestFirst request versions c mem), Digest.matching_takeMatch ..⟩

/-! ## Where the walk comes to -/

/-- The metadata of a version is needed, and it failed. -/
def Breaks (matcher : Matcher) (o : LookupOutcome) (v : String) : Prop :=
  matcher.accepts ⟨v⟩ = true ∧ matcher.needsMetadata = true ∧ ∃ f, o.result = some (.failed f)

/-- The walk through a listing leads to a version: it is listed, and the walk does not end before. -/
structure LeadsTo (matcher : Matcher) (rules : Rules) (answer : String → LookupOutcome) (versions : List String) (v : String) :
    Prop where
  listed : v ∈ versions
  reached : Reaches matcher rules answer versions v
  unbroken : ∀ w ∈ versions, Version.compare ⟨w⟩ ⟨v⟩ = .gt → ¬Breaks matcher (answer w) w

/-- Where several versions are asked for, the walk leads to every version that is listed. -/
theorem leadsTo_iff_of_not_unique (hu : matcher.isUnique = false) {v : String} :
    LeadsTo matcher rules answer versions v ↔ v ∈ versions := by
  constructor
  · intro h
    exact h.listed
  · intro hv
    refine ⟨hv, fun hu' => ?_, ?_⟩
    · nomatch hu.symm.trans hu'
    · rintro w - - ⟨-, hn, -⟩
      nomatch hn.symm.trans (needsMetadata_of_not_unique hu)

theorem selectable_iff {o : LookupOutcome} {c : Candidate} :
    Selectable matcher rules o c ↔ selects matcher rules o c.component.version = true := by
  have hversion : c.version = ⟨c.component.version⟩ := rfl
  have hmetadata : (∃ m, o.result = some (.resolved m) ∧ matcher.acceptsMetadata m = true) ↔
      o.metadata?.any matcher.acceptsMetadata = true := by
    simp [LookupOutcome.metadata?_eq_some_iff, Option.any_eq_true]
  unfold Selectable AsksFor selects wants
  rw [hversion, hmetadata]
  cases matcher.needsMetadata <;> simp

/-- The walk ends with a candidate that is selected, where one is asked for, and with one whose metadata is needed and failed. -/
theorem settles_judge_iff {o : LookupOutcome} {c : Candidate} :
    (judge matcher rules o c).settles matcher = true ↔
      matcher.isUnique = true ∧ selects matcher rules o c.component.version = true ∨ Breaks matcher o c.component.version := by
  have hmatch : selects matcher rules o c.component.version = true → judge matcher rules o c = .isMatch c.component :=
    fun h => judge_eq_isMatch_iff.mpr ⟨rfl, selectable_iff.mpr h⟩
  have hfailed : Breaks matcher o c.component.version → ∃ f, judge matcher rules o c = .failed f :=
    fun ⟨accepted, needed, f, fails⟩ => ⟨f, judge_eq_failed_iff.mpr ⟨accepted, needed, fails⟩⟩
  constructor
  · intro h
    cases hj : judge matcher rules o c with
    | isMatch component =>
      rw [hj] at h
      exact Or.inl ⟨h, selectable_iff.mp (judge_eq_isMatch_iff.mp hj).2⟩
    | failed f =>
      obtain ⟨accepted, needed, fails⟩ := judge_eq_failed_iff.mp hj
      exact Or.inr ⟨accepted, needed, f, fails⟩
    | notMatched | rejected | noMatch =>
      rw [hj] at h
      nomatch h
  · rintro (⟨hu, hs⟩ | hb)
    · rw [hmatch hs]
      exact hu
    · obtain ⟨f, hf⟩ := hfailed hb
      rw [hf]
      rfl

/-- The version of a verdict that is a match is that of the candidate, and it is selected. -/
theorem matched?_judgeBy {c : Candidate} {v : String} :
    (judgeBy matcher rules answer c).matched? = some v ↔
      c.component.version = v ∧ selects matcher rules (answer v) v = true := by
  unfold judgeBy
  constructor
  · intro h
    cases hj : judge matcher rules (answer c.component.version) c with
    | isMatch component =>
      obtain ⟨rfl, hs⟩ := judge_eq_isMatch_iff.mp hj
      rw [hj] at h
      obtain rfl := Option.some.inj h
      exact ⟨rfl, selectable_iff.mp hs⟩
    | notMatched | rejected | noMatch | failed =>
      rw [hj] at h
      nomatch h
  · rintro ⟨rfl, hs⟩
    rw [judge_eq_isMatch_iff.mpr ⟨rfl, selectable_iff.mpr hs⟩]
    rfl

theorem mem_filterMap_judgeBy {cs : List Candidate} {v : String} :
    v ∈ (cs.map (judgeBy matcher rules answer)).filterMap Verdict.matched? ↔
      selects matcher rules (answer v) v = true ∧ ∃ c ∈ cs, c.component.version = v := by
  simp only [List.filterMap_map, List.mem_filterMap, Function.comp_apply, matched?_judgeBy]
  constructor
  · rintro ⟨c, hc, hv, hs⟩
    exact ⟨hs, c, hc, hv⟩
  · rintro ⟨hs, c, hc, hv⟩
    exact ⟨c, hc, hv, hs⟩

/-- Where the walk ends with a candidate, a selected version is judged just if no newer candidate ends the walk. -/
theorem exists_judged_iff {before after : List Candidate} {c : Candidate} {v : String} (hu : matcher.isUnique = true)
    (hsorted : (before ++ c :: after).Pairwise Candidate.NoOlder)
    (hgoes : ∀ b ∈ before, (judgeBy matcher rules answer b).settles matcher = false)
    (hends : (judgeBy matcher rules answer c).settles matcher = true) (hs : selects matcher rules (answer v) v = true) :
    (∃ x ∈ before ++ [c], x.component.version = v) ↔
      (∃ x ∈ before ++ c :: after, x.component.version = v) ∧
        ∀ d ∈ before ++ c :: after, Version.compare d.version ⟨v⟩ = .gt →
          (judgeBy matcher rules answer d).settles matcher = false := by
  have hlater : ∀ d ∈ c :: after, Candidate.NoOlder c d := by
    rintro d (_ | ⟨_, hd⟩)
    · exact Std.ReflCmp.isLE_rfl
    · exact List.rel_of_pairwise_cons (List.pairwise_append.mp hsorted).2.1 hd
  constructor
  · rintro ⟨x, hx, rfl⟩
    rcases List.mem_append.mp hx with hb | hx
    · -- a selected version would have ended the walk before
      have hends' : (judgeBy matcher rules answer x).settles matcher = true := settles_judge_iff.mpr (Or.inl ⟨hu, hs⟩)
      nomatch (hgoes x hb).symm.trans hends'
    · obtain rfl := List.mem_singleton.mp hx
      refine ⟨⟨x, by simp, rfl⟩, fun d hd hgt => ?_⟩
      rcases List.mem_append.mp hd with hb | hd
      · exact hgoes d hb
      · exact absurd hgt (Ordering.isLE_iff_ne_gt.mp (hlater d hd))
  · rintro ⟨⟨x, hx, rfl⟩, hnewer⟩
    rcases List.mem_append.mp hx with hb | hx
    · exact ⟨x, by simp [hb], rfl⟩
    · have hnot : Version.compare c.version x.version ≠ .gt :=
        fun hgt => nomatch hends.symm.trans (hnewer c (by simp) hgt)
      have hsame : c.component.version = x.component.version :=
        NoOlder.antisymm (hlater x hx) (Ordering.isLE_iff_ne_gt.mpr hnot)
      exact ⟨c, by simp, hsame⟩

/-- Of candidates from the newest to the oldest, a version is matched if it is selected and no newer candidate ends the walk. -/
theorem mem_matched_walk {cs : List Candidate} (hp : Placed versions cs) (hsorted : cs.Pairwise Candidate.NoOlder) {v : String} :
    v ∈ ((walk matcher rules false cs).run (versions.map answer)).1.filterMap Verdict.matched? ↔
      selects matcher rules (answer v) v = true ∧ (∃ c ∈ cs, c.component.version = v) ∧
        ∀ d ∈ cs, Version.compare d.version ⟨v⟩ = .gt → (judgeBy matcher rules answer d).settles matcher = false := by
  have hjudged : ∀ c ∈ cs, judgeAt matcher rules (versions.map answer) c = judgeBy matcher rules answer c :=
    fun c hc => judgeAt_of_placed (hp c hc)
  generalize versions.map answer = outcomes at hjudged
  rcases run_walk_cases matcher rules outcomes cs false with ⟨hgoes, hrun⟩ | ⟨before, c, after, rfl, hgoes, hends, hrun⟩
  · have htail : ∀ b : Bool, (if b then [] else [Verdict.noMatch]).filterMap Verdict.matched? = [] := by
      rintro (_ | _) <;> rfl
    rw [hrun, List.map_congr_left hjudged, List.filterMap_append, htail, List.append_nil, mem_filterMap_judgeBy]
    refine and_congr_right fun _ => (and_iff_left fun d hd _ => ?_).symm
    rw [← hjudged d hd]
    exact hgoes d hd
  · have hu : matcher.isUnique = true := by
      rcases match_or_failure_of_settles hends with ⟨-, hu⟩ | ⟨-, hn⟩
      · exact hu
      · exact unique_of_needsMetadata hn
    have hsaid : before.map (judgeAt matcher rules outcomes) ++ [judgeAt matcher rules outcomes c] =
        (before ++ [c]).map (judgeBy matcher rules answer) := by
      rw [List.map_append, List.map_singleton, hjudged c (by simp),
        List.map_congr_left fun b hb => hjudged b (by simp [hb])]
    rw [hjudged c (by simp)] at hends
    rw [hrun, hsaid, mem_filterMap_judgeBy]
    refine and_congr_right fun hs => exists_judged_iff hu hsorted (fun b hb => ?_) hends hs
    rw [← hjudged b (by simp [hb])]
    exact hgoes b hb

/-- Which versions of a listing are matched. -/
theorem mem_matched {v : String} :
    v ∈ matched rules request answer versions ↔
      ∃ matcher, Matcher.ofSelector request.selector = .ok matcher ∧ selects matcher rules (answer v) v = true ∧
        LeadsTo matcher rules answer versions v := by
  cases hsel : Matcher.ofSelector request.selector with
  | error e => simp [matched_of_error hsel]
  | ok matcher =>
    have hmem : ∀ w, w ∈ versions ↔
        ∃ c ∈ Candidate.newestFirst (Candidate.offer request versions), c.component.version = w := by
      intro w
      rw [← (newestFirst_perm versions).mem_iff, ← map_version_newestFirst request, List.mem_map]
    have hmatched : matched rules request answer versions = ((walk matcher rules false
        (Candidate.newestFirst (Candidate.offer request versions))).run (versions.map answer)).1.filterMap
          Verdict.matched? := by
      unfold matched standardSelect
      rw [hsel]
    rw [hmatched, mem_matched_walk (placed_newestFirst request versions) (Candidate.pairwise_newestFirst _)]
    constructor
    · rintro ⟨hs, hlisted, hgoes⟩
      have hnot : ∀ w ∈ versions, Version.compare ⟨w⟩ ⟨v⟩ = .gt →
          ¬(matcher.isUnique = true ∧ selects matcher rules (answer w) w = true ∨ Breaks matcher (answer w) w) := by
        intro w hw hgt hends
        obtain ⟨d, hd, rfl⟩ := (hmem w).mp hw
        nomatch (hgoes d hd hgt).symm.trans (settles_judge_iff.mpr hends)
      exact ⟨matcher, rfl, hs, {
        listed := (hmem v).mpr hlisted
        reached := fun hu w hw hgt => Bool.eq_false_iff.mpr fun hselects => hnot w hw hgt (Or.inl ⟨hu, hselects⟩)
        unbroken := fun w hw hgt hbreaks => hnot w hw hgt (Or.inr hbreaks) }⟩
    · rintro ⟨_, ⟨⟩, hs, hleads⟩
      refine ⟨hs, (hmem v).mp hleads.listed, fun d hd hgt => Bool.eq_false_iff.mpr fun hsettles => ?_⟩
      have hlisted : d.component.version ∈ versions := (hmem _).mpr ⟨d, hd, rfl⟩
      rcases settles_judge_iff.mp hsettles with ⟨hu, hselects⟩ | hbreaks
      · nomatch (hleads.reached hu _ hlisted hgt).symm.trans hselects
      · exact hleads.unbroken _ hlisted hgt hbreaks

end Policy

end VersionChain
