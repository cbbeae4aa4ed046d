import VersionChain.Proofs.Latest

/-!
# The latest versions of two statuses

A status that every scheme has no later than another asks for no more maturity. The walk for it selects whatever the walk for the
other selects, and so it ends there at the latest: with a version that is no older, and before any failure that the other one does
not meet.
-/

namespace VersionChain

/-- If the scheme of the metadata has the status `hi`, it has `lo` too, and no later. -/
def Metadata.HasNoLater (m : Metadata) (lo hi : String) : Prop :=
  ∀ place ∈ m.statusScheme.idxOf? hi, ∃ place' ∈ m.statusScheme.idxOf? lo, place' ≤ place

instance (m : Metadata) (lo hi : String) : Decidable (m.HasNoLater lo hi) :=
  inferInstanceAs (Decidable (∀ place ∈ m.statusScheme.idxOf? hi, ∃ place' ∈ m.statusScheme.idxOf? lo, place' ≤ place))

/-- What is good enough for a status is good enough for one that comes no later. -/
theorem Metadata.IsAtLeast.mono {m : Metadata} {lo hi : String} (h : m.IsAtLeast hi) (hno : m.HasNoLater lo hi) :
    m.IsAtLeast lo := by
  obtain ⟨actual, wanted, hactual, hwanted, hle⟩ := h
  obtain ⟨wanted', hwanted', hle'⟩ := hno wanted hwanted
  exact ⟨actual, wanted', hactual, hwanted', hle'.trans hle⟩

namespace Policy

variable {rules : Rules} {outcomes : List LookupOutcome} {lo hi : String} {cs : List Candidate}

/-- The schemes of all candidates with metadata have the status `lo` no later than `hi`. -/
def RankNoLater (outcomes : List LookupOutcome) (cs : List Candidate) (lo hi : String) : Prop :=
  ∀ c ∈ cs, ∀ m ∈ (outcomes.getD c.position .unknown).metadata?, m.HasNoLater lo hi

instance (outcomes : List LookupOutcome) (cs : List Candidate) (lo hi : String) : Decidable (RankNoLater outcomes cs lo hi) :=
  inferInstanceAs (Decidable (∀ c ∈ cs, ∀ m ∈ (outcomes.getD c.position .unknown).metadata?, m.HasNoLater lo hi))

/-- A candidate that can be selected for a status can be selected for one that comes no later. -/
theorem Selectable.mono {c : Candidate} (hno : RankNoLater outcomes cs lo hi) (hc : c ∈ cs)
    (h : Selectable (.latest (some hi)) rules (outcomes.getD c.position .unknown) c) :
    Selectable (.latest (some lo)) rules (outcomes.getD c.position .unknown) c := by
  obtain ⟨⟨-, hmetadata⟩, hallowed⟩ := h
  obtain ⟨m, hm, haccepted⟩ := hmetadata rfl
  have hleast := (Matcher.acceptsMetadata_iff_isAtLeast.mp haccepted).mono
    (hno c hc m (LookupOutcome.metadata?_eq_some_iff.mpr hm))
  exact ⟨⟨rfl, fun _ => ⟨m, hm, Matcher.acceptsMetadata_iff_isAtLeast.mpr hleast⟩⟩, hallowed⟩

/-- Metadata that fails, fails for every status. -/
theorem judgeAt_failed_congr {c : Candidate} {f : Failure} (h : judgeAt (.latest (some lo)) rules outcomes c = .failed f) :
    judgeAt (.latest (some hi)) rules outcomes c = .failed f := by
  obtain ⟨-, -, hfails⟩ := judge_eq_failed_iff.mp h
  exact judge_eq_failed_iff.mpr ⟨rfl, rfl, hfails⟩

/-! ## The walk for a status -/

/-- The verdicts of the walk for the latest version of a status. -/
def verdictsFor (status : String) (rules : Rules) (outcomes : List LookupOutcome) (cs : List Candidate) : List Verdict :=
  ((walk (.latest (some status)) rules false cs).run outcomes).1

variable {status : String} {c : Candidate}

theorem judgeAt_cases (status : String) (rules : Rules) (outcomes : List LookupOutcome) (c : Candidate) :
    judgeAt (.latest (some status)) rules outcomes c = .isMatch c.component ∨
      (∃ f, judgeAt (.latest (some status)) rules outcomes c = .failed f) ∨
      (judgeAt (.latest (some status)) rules outcomes c).passesOver = true := by
  by_cases hs : (judgeAt (.latest (some status)) rules outcomes c).settles (.latest (some status)) = true
  · rcases match_or_failure_of_settles hs with ⟨hmatch, -⟩ | ⟨hfailed, -⟩
    · exact Or.inl hmatch
    · exact Or.inr (Or.inl hfailed)
  · rcases isAMatch_or_passesOver_of_not_settles (Bool.eq_false_iff.mpr hs) with ⟨-, hmany⟩ | hpassed
    · nomatch hmany
    · exact Or.inr (Or.inr hpassed)

theorem verdictsFor_of_isMatch {k : Component} (h : judgeAt (.latest (some status)) rules outcomes c = .isMatch k) :
    verdictsFor status rules outcomes (c :: cs) = [.isMatch k] := by
  rw [verdictsFor, run_walk_judge, h]
  rfl

theorem verdictsFor_of_failed {f : Failure} (h : judgeAt (.latest (some status)) rules outcomes c = .failed f) :
    verdictsFor status rules outcomes (c :: cs) = [.failed f] := by
  rw [verdictsFor, run_walk_judge, h]
  rfl

theorem verdictsFor_of_passesOver (h : (judgeAt (.latest (some status)) rules outcomes c).passesOver = true) :
    verdictsFor status rules outcomes (c :: cs) =
      judgeAt (.latest (some status)) rules outcomes c :: verdictsFor status rules outcomes cs := by
  rw [verdictsFor, run_walk_judge, settles_of_passesOver h, (not_of_passesOver h).1]
  rfl

/-- Where the walk for a status comes to a match, the walk for one that comes no later comes to a match before or there, and to no
failure. -/
theorem exists_match_of_rankNoLater (hsorted : cs.Pairwise Candidate.NoOlder) (hno : RankNoLater outcomes cs lo hi)
    {component : Component} (h : .isMatch component ∈ verdictsFor hi rules outcomes cs) :
    ∃ c ∈ cs, c.component = component ∧ ∃ d ∈ cs, Candidate.NoOlder d c ∧
      .isMatch d.component ∈ verdictsFor lo rules outcomes cs ∧ ∀ f, .failed f ∉ verdictsFor lo rules outcomes cs := by
  induction cs with
  | nil => simp [verdictsFor, walk, Selection.run] at h
  | cons c cs ih =>
    obtain ⟨hfirst, hsorted⟩ := List.pairwise_cons.mp hsorted
    -- a match for the other status at the first candidate is no older than any
    have hhere : judgeAt (.latest (some lo)) rules outcomes c = .isMatch c.component →
        .isMatch c.component ∈ verdictsFor lo rules outcomes (c :: cs) ∧
          ∀ f, .failed f ∉ verdictsFor lo rules outcomes (c :: cs) := by
      intro hmatch
      rw [verdictsFor_of_isMatch hmatch]
      exact ⟨List.mem_singleton_self _, by simp⟩
    rcases judgeAt_cases hi rules outcomes c with hmatch | ⟨f, hfailed⟩ | hpassed
    · rw [verdictsFor_of_isMatch hmatch, List.mem_singleton] at h
      have hselectable := (judge_eq_isMatch_iff.mp hmatch).2.mono hno List.mem_cons_self
      exact ⟨c, List.mem_cons_self, (Verdict.isMatch.inj h).symm, c, List.mem_cons_self, Std.ReflCmp.isLE_rfl,
        hhere (judge_eq_isMatch_iff.mpr ⟨rfl, hselectable⟩)⟩
    · rw [verdictsFor_of_failed hfailed, List.mem_singleton] at h
      cases h
    · rw [verdictsFor_of_passesOver hpassed, List.mem_cons] at h
      have hlater := h.resolve_left fun heq => by
        rw [← heq] at hpassed
        cases hpassed
      obtain ⟨e, he, hcomponent, d, hd, hde, hmatch, hnever⟩ :=
        ih hsorted (fun b hb => hno b (List.mem_cons_of_mem c hb)) hlater
      refine ⟨e, List.mem_cons_of_mem c he, hcomponent, ?_⟩
      rcases judgeAt_cases lo rules outcomes c with hmatch' | ⟨f, hfailed⟩ | hpassed'
      · exact ⟨c, List.mem_cons_self, hfirst e he, hhere hmatch'⟩
      · rw [judgeAt_failed_congr hfailed] at hpassed
        cases hpassed
      · refine ⟨d, List.mem_cons_of_mem c hd, hde, ?_⟩
        rw [verdictsFor_of_passesOver hpassed']
        refine ⟨List.mem_cons_of_mem _ hmatch, fun f hf => ?_⟩
        rcases List.mem_cons.mp hf with heq | hf
        · rw [← heq] at hpassed'
          cases hpassed'
        · exact hnever f hf

/-- Asking for more maturity never leads to a newer version. Where a version is matched under one status, under a status that the
schemes have no later a version is matched that is no older, and nothing fails. -/
theorem more_mature_no_newer (rules : Rules) (turn turn' : Nat) (candidates : List Candidate) (outcomes : List LookupOutcome)
    {request request' : Request} {hi lo : String} (hhi : Matcher.ofSelector request.selector = .ok (.latest (some hi)))
    (hlo : Matcher.ofSelector request'.selector = .ok (.latest (some lo))) (hno : RankNoLater outcomes candidates lo hi)
    {component : Component}
    (h : .isMatch component ∈ (((standard rules).select turn candidates request).run outcomes).1) :
    let verdicts' := (((standard rules).select turn' candidates request').run outcomes).1
    (∃ component', .isMatch component' ∈ verdicts' ∧
      (Version.compare ⟨component.version⟩ ⟨component'.version⟩).isLE = true) ∧ ∀ f, .failed f ∉ verdicts' := by
  have hselect : ∀ {turn request status}, Matcher.ofSelector request.selector = .ok (.latest (some status)) →
      (((standard rules).select turn candidates request).run outcomes).1 =
        verdictsFor status rules outcomes (Candidate.newestFirst candidates) := by
    intro turn request status hsel
    change ((standardSelect rules candidates request).run outcomes).1 = _
    rw [standardSelect, hsel]
    rfl
  have hperm : (Candidate.newestFirst candidates).Perm candidates := List.mergeSort_perm candidates _
  rw [hselect hhi] at h
  intro verdicts'
  have hverdicts : verdicts' = _ := hselect hlo
  obtain ⟨c, -, rfl, d, -, hdc, hmatch, hnever⟩ :=
    exists_match_of_rankNoLater (Candidate.pairwise_newestFirst candidates) (fun c hc => hno c (hperm.mem_iff.mp hc)) h
  rw [hverdicts]
  exact ⟨⟨d.component, hmatch, hdc⟩, hnever⟩

/-- What is known of four versions: a release, a milestone, nothing, and one whose metadata is broken. -/
def staged : List LookupOutcome :=
  [.of (.resolved (.facts (.plain ⟨"g", "n", "1.0"⟩))),
    .of (.resolved (.facts { Facts.plain ⟨"g", "n", "2.0"⟩ with status := "milestone" })),
    .of .missing,
    .of (.failed (.access "r" .remote "g:n:0.9" "broken descriptor"))]

/-- The release is the latest one, and the milestone before it is the latest of its status. The broken version is never read. -/
theorem more_mature_no_newer_staged :
    let candidates := Candidate.offer ⟨"g", "n", "latest.release"⟩ ["1.0", "2.0", "3.0", "0.9"]
    let verdicts (selector : String) := (((standard {}).select 0 candidates ⟨"g", "n", selector⟩).run staged).1
    RankNoLater staged candidates "milestone" "release" ∧ .isMatch ⟨"g", "n", "1.0"⟩ ∈ verdicts "latest.release" ∧
      (∃ component', .isMatch component' ∈ verdicts "latest.milestone" ∧
        (Version.compare ⟨"1.0"⟩ ⟨component'.version⟩).isLE = true) ∧ ∀ f, .failed f ∉ verdicts "latest.milestone" := by
  intro candidates verdicts
  have hno : RankNoLater staged candidates "milestone" "release" := by decide +kernel
  have hmatch : .isMatch ⟨"g", "n", "1.0"⟩ ∈ verdicts "latest.release" := by
    unfold verdicts
    rw [standard_eq]
    decide +kernel
  have hhi : Matcher.ofSelector "latest.release" = .ok (.latest (some "release")) := by decide +kernel
  have hlo : Matcher.ofSelector "latest.milestone" = .ok (.latest (some "milestone")) := by decide +kernel
  exact ⟨hno, hmatch, more_mature_no_newer {} 0 0 candidates staged hhi hlo hno hmatch⟩

end Policy

end VersionChain
