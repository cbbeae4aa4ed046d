import VersionChain.Proofs.Walk

/-!
# How the standard policy judges candidates

The standard policy judges candidates one by one, from the newest to the oldest, and gives one verdict on each: `Judges` says which.
It goes on to the last candidate unless a verdict settles the selection: a failure, or a match where one is all the selector asks
for. `Closes` says how the verdicts end, and `standard_reports` puts both together for every list of candidates.
-/

namespace VersionChain

/-! ## The order of judgement -/

namespace Candidate

/-- Candidates of one version stay in the order in which they are offered. -/
theorem filter_newestFirst (cs : List Candidate) (v : Version) :
    (newestFirst cs).filter (·.version == v) = cs.filter (·.version == v) := by
  have hpairwise : (cs.filter (·.version == v)).Pairwise NoOlder := by
    refine List.pairwise_of_forall_mem_list fun a ha b hb => ?_
    have hav : a.version = v := by simpa using (List.mem_filter.mp ha).2
    have hbv : b.version = v := by simpa using (List.mem_filter.mp hb).2
    rw [NoOlder, hav, hbv]
    exact Std.ReflCmp.isLE_rfl
  have hsub : (cs.filter (·.version == v)).Sublist (newestFirst cs) :=
    List.sublist_mergeSort noOlder_trans noOlder_total hpairwise List.filter_sublist
  have hsame := hsub.filter (·.version == v)
  simp only [List.filter_filter, Bool.and_self] at hsame
  have hperm : (newestFirst cs).Perm cs := List.mergeSort_perm cs _
  exact (hsame.eq_of_length (hperm.filter _).length_eq.symm).symm

end Candidate

/-! ## The verdict on a candidate -/

namespace Verdict

/-- Whether the verdict passes over a version, so that the walk goes on to the next one. -/
def passesOver : Verdict → Bool
  | notMatched _ => true
  | rejected _ => true
  | _ => false

/-- Whether the verdict is a match. -/
def isAMatch : Verdict → Bool
  | isMatch _ => true
  | _ => false

/-- Whether the verdict is a failure. -/
def isAFailure : Verdict → Bool
  | failed _ => true
  | _ => false

/-- The component that the verdict selects. -/
def component? : Verdict → Option Component
  | isMatch component => some component
  | _ => none

/-- Whether nothing is judged after the verdict. -/
def settles (matcher : Matcher) : Verdict → Bool
  | failed _ => true
  | isMatch _ => matcher.isUnique
  | _ => false

end Verdict

/-- The metadata of a version is not there, or it is not of the status that the selector asks for. -/
def Matcher.Insufficient (matcher : Matcher) (o : LookupOutcome) : Prop :=
  o.result = none ∨ o.result = some .missing ∨ ∃ m, o.result = some (.resolved m) ∧ matcher.acceptsMetadata m = false

namespace Policy

variable {matcher : Matcher} {rules : Rules}

/-- The selector asks for the version of a candidate, by its text and, where that is needed, by its metadata. -/
def AsksFor (matcher : Matcher) (o : LookupOutcome) (c : Candidate) : Prop :=
  matcher.accepts c.version = true ∧
    (matcher.needsMetadata = true → ∃ m, o.result = some (.resolved m) ∧ matcher.acceptsMetadata m = true)

/-- The selector asks for the candidate, and no rule excludes it. -/
def Selectable (matcher : Matcher) (rules : Rules) (o : LookupOutcome) (c : Candidate) : Prop :=
  AsksFor matcher o c ∧ rules.rejects c.version = false

/-- Which verdict is given on a candidate, by what is known of its metadata. -/
inductive Judges (matcher : Matcher) (rules : Rules) (o : LookupOutcome) (c : Candidate) : Verdict → Prop where
  /-- The text of the version is not accepted, or its metadata is needed and insufficient. -/
  | notMatched
      (unasked : matcher.accepts c.version = false ∨ matcher.needsMetadata = true ∧ matcher.Insufficient o) :
      Judges matcher rules o c (.notMatched c.component.version)
  /-- The metadata is needed and failed. -/
  | failed {f : Failure} (accepted : matcher.accepts c.version = true) (needed : matcher.needsMetadata = true)
      (fails : o.result = some (.failed f)) : Judges matcher rules o c (.failed f)
  /-- The version is asked for, and a rule excludes it. -/
  | rejected (asked : AsksFor matcher o c) (excluded : rules.rejects c.version = true) :
      Judges matcher rules o c (.rejected c.component.version)
  /-- The version is asked for, and no rule excludes it. -/
  | isMatch (asked : AsksFor matcher o c) (allowed : rules.rejects c.version = false) :
      Judges matcher rules o c (.isMatch c.component)

/-- The verdict on a candidate, by what is known of its metadata. -/
def judge (matcher : Matcher) (rules : Rules) (o : LookupOutcome) (c : Candidate) : Verdict :=
  if !matcher.accepts c.version then .notMatched c.version.source
  else if matcher.needsMetadata then inspected matcher rules c o
  else ruled rules c

theorem judges_ruled {o : LookupOutcome} {c : Candidate} (h : AsksFor matcher o c) :
    Judges matcher rules o c (ruled rules c) := by
  unfold ruled
  by_cases hr : rules.rejects c.version = true
  · rw [if_pos hr]
    exact .rejected h hr
  · rw [if_neg hr]
    exact .isMatch h (by simpa using hr)

theorem judges_judge (matcher : Matcher) (rules : Rules) (o : LookupOutcome) (c : Candidate) :
    Judges matcher rules o c (judge matcher rules o c) := by
  unfold judge
  by_cases ha : matcher.accepts c.version = true
  · rw [if_neg (by simp [ha])]
    by_cases hn : matcher.needsMetadata = true
    · rw [if_pos hn]
      unfold inspected
      rcases hr : o.result with _ | m | _ | f <;> dsimp only
      · exact .notMatched (Or.inr ⟨hn, Or.inl hr⟩)
      · by_cases hm : matcher.acceptsMetadata m = true
        · rw [if_pos hm]
          exact judges_ruled ⟨ha, fun _ => ⟨m, hr, hm⟩⟩
        · rw [if_neg hm]
          exact .notMatched (Or.inr ⟨hn, Or.inr (Or.inr ⟨m, hr, by simpa using hm⟩)⟩)
      · exact .notMatched (Or.inr ⟨hn, Or.inr (Or.inl hr)⟩)
      · exact .failed ha hn hr
    · rw [if_neg hn]
      exact judges_ruled ⟨ha, fun h => absurd h hn⟩
  · rw [if_pos (by simp [ha])]
    exact .notMatched (Or.inl (by simpa using ha))

theorem judge_of_asksFor {o : LookupOutcome} {c : Candidate} (h : AsksFor matcher o c) :
    judge matcher rules o c = ruled rules c := by
  obtain ⟨ha, hm⟩ := h
  unfold judge
  rw [if_neg (by simp [ha])]
  by_cases hn : matcher.needsMetadata = true
  · obtain ⟨m, hr, hacc⟩ := hm hn
    rw [if_pos hn, inspected, hr]
    exact if_pos hacc
  · exact if_neg hn

theorem judge_of_insufficient {o : LookupOutcome} {c : Candidate} (hn : matcher.needsMetadata = true)
    (h : matcher.Insufficient o) : judge matcher rules o c = .notMatched c.component.version := by
  unfold judge
  split
  · rfl
  · rw [inspected]
    rcases h with hr | hr | ⟨m, hr, hacc⟩ <;> rw [hr]
    · rfl
    · rfl
    · exact if_neg (by simp [hacc])

/-- Just one verdict is given on a candidate. -/
theorem judges_iff {o : LookupOutcome} {c : Candidate} {verdict : Verdict} :
    Judges matcher rules o c verdict ↔ verdict = judge matcher rules o c := by
  constructor
  · intro h
    cases h with
    | notMatched unasked =>
      rcases unasked with ha | ⟨hn, hins⟩
      · exact (if_pos (by simp [ha])).symm
      · exact (judge_of_insufficient hn hins).symm
    | failed accepted needed fails =>
      unfold judge
      rw [if_neg (by simp [accepted]), if_pos needed, inspected, fails]
    | rejected asked excluded => rw [judge_of_asksFor asked, ruled, if_pos excluded]; rfl
    | isMatch asked allowed => rw [judge_of_asksFor asked, ruled, if_neg (by simp [allowed])]
  · rintro rfl
    exact judges_judge matcher rules o c

/-- The candidates that match are those that can be selected. -/
theorem judge_eq_isMatch_iff {o : LookupOutcome} {c : Candidate} {component : Component} :
    judge matcher rules o c = .isMatch component ↔ component = c.component ∧ Selectable matcher rules o c := by
  constructor
  · intro h
    have hjudges := judges_iff.mpr h.symm
    cases hjudges with
    | isMatch asked allowed => exact ⟨rfl, asked, allowed⟩
  · rintro ⟨rfl, asked, allowed⟩
    exact (judges_iff.mp (.isMatch asked allowed)).symm

/-- The candidates that fail are those whose metadata is needed and failed. -/
theorem judge_eq_failed_iff {o : LookupOutcome} {c : Candidate} {f : Failure} :
    judge matcher rules o c = .failed f ↔
      matcher.accepts c.version = true ∧ matcher.needsMetadata = true ∧ o.result = some (.failed f) := by
  constructor
  · intro h
    have hjudges := judges_iff.mpr h.symm
    cases hjudges with
    | failed accepted needed fails => exact ⟨accepted, needed, fails⟩
  · rintro ⟨accepted, needed, fails⟩
    exact (judges_iff.mp (.failed accepted needed fails)).symm

/-! ## The walk through the candidates -/

/-- A selection goes on after a verdict unless that settles it. -/
theorem goOn_eq (matcher : Matcher) (found : Bool) (verdict : Verdict) (rest : Bool → Selection) :
    goOn matcher found verdict rest =
      .report verdict (if verdict.settles matcher then .done else rest (found || verdict.isAMatch)) := by
  cases verdict <;> simp [goOn, Verdict.settles, Verdict.isAMatch]

theorem run_goOn (found : Bool) (verdict : Verdict) (rest : Bool → Selection) (outcomes : List LookupOutcome) :
    ((goOn matcher found verdict rest).run outcomes).1 =
      verdict :: if verdict.settles matcher then [] else ((rest (found || verdict.isAMatch)).run outcomes).1 := by
  rw [goOn_eq]
  cases verdict.settles matcher <;> rfl

/-- The verdict on a candidate, by the metadata that is given for its position. -/
def judgeAt (matcher : Matcher) (rules : Rules) (outcomes : List LookupOutcome) (c : Candidate) : Verdict :=
  judge matcher rules (outcomes.getD c.position .unknown) c

/-- The verdict on a candidate, by what is known of its version. -/
def judgeBy (matcher : Matcher) (rules : Rules) (answer : String → LookupOutcome) (c : Candidate) : Verdict :=
  judge matcher rules (answer c.component.version) c

/-- On a candidate at its place in the offer, both are the same. -/
theorem judgeAt_of_placed {answer : String → LookupOutcome} {offered : List String} {c : Candidate}
    (hc : offered[c.position]? = some c.component.version) :
    judgeAt matcher rules (offered.map answer) c = judgeBy matcher rules answer c := by
  rw [judgeAt, List.getD_eq_getElem?_getD, List.getElem?_map, hc]
  rfl

variable (matcher rules) (outcomes : List LookupOutcome)

/-- A walk judges its first candidate and goes on, unless the verdict settles the selection. -/
theorem run_walk_judge (found : Bool) (c : Candidate) (cs : List Candidate) :
    ((walk matcher rules found (c :: cs)).run outcomes).1 =
      judgeAt matcher rules outcomes c :: if (judgeAt matcher rules outcomes c).settles matcher then []
        else ((walk matcher rules (found || (judgeAt matcher rules outcomes c).isAMatch) cs).run outcomes).1 := by
  rw [← run_goOn found _ (walk matcher rules · cs), walk, judgeAt, judge]
  split
  · rfl
  · split <;> rfl

/-- A walk gives a verdict on every candidate, and reports it when none was matched; or it ends with the first verdict that settles
the selection. -/
theorem run_walk_cases (cs : List Candidate) : ∀ found : Bool,
    (∀ c ∈ cs, (judgeAt matcher rules outcomes c).settles matcher = false) ∧
        ((walk matcher rules found cs).run outcomes).1 = cs.map (judgeAt matcher rules outcomes) ++
          (if found || cs.any fun c => (judgeAt matcher rules outcomes c).isAMatch then [] else [.noMatch]) ∨
      ∃ before c after, cs = before ++ c :: after ∧
        (∀ b ∈ before, (judgeAt matcher rules outcomes b).settles matcher = false) ∧
        (judgeAt matcher rules outcomes c).settles matcher = true ∧
        ((walk matcher rules found cs).run outcomes).1 =
          before.map (judgeAt matcher rules outcomes) ++ [judgeAt matcher rules outcomes c] := by
  induction cs with
  | nil =>
    intro found
    refine Or.inl ⟨by simp, ?_⟩
    cases found <;> rfl
  | cons c cs ih =>
    intro found
    rw [run_walk_judge]
    by_cases hs : (judgeAt matcher rules outcomes c).settles matcher = true
    · rw [if_pos hs]
      exact Or.inr ⟨[], c, cs, rfl, by simp, hs, rfl⟩
    · have hs' : (judgeAt matcher rules outcomes c).settles matcher = false := by simpa using hs
      rw [if_neg hs]
      rcases ih (found || (judgeAt matcher rules outcomes c).isAMatch) with ⟨hall, hrun⟩ | ⟨before, d, after, rfl, hb, hd, hrun⟩
      · refine Or.inl ⟨List.forall_mem_cons.mpr ⟨hs', hall⟩, ?_⟩
        rw [hrun, List.any_cons, Bool.or_assoc]
        rfl
      · exact Or.inr ⟨c :: before, d, after, rfl, List.forall_mem_cons.mpr ⟨hs', hb⟩, hd, by rw [hrun]; rfl⟩

/-! ## How the verdicts end -/

/-- What is reported in all, when verdicts were given on some candidates and the rest was left. -/
inductive Closes (matcher : Matcher) (rest : List Candidate) (said : List Verdict) : List Verdict → Prop where
  /-- All candidates were judged, and none is a match: that is reported last. -/
  | nothing (all : rest = []) (passed : ∀ x ∈ said, x.passesOver = true) : Closes matcher rest said (said ++ [.noMatch])
  /-- All candidates were judged, and some are matches. -/
  | several (all : rest = []) (many : matcher.isUnique = false) (found : ∃ x ∈ said, x.isAMatch = true)
      (sound : ∀ x ∈ said, x.isAMatch = true ∨ x.passesOver = true) : Closes matcher rest said said
  /-- The last candidate that was judged is the one match that is asked for. -/
  | one {before : List Verdict} {c : Component} (ends : said = before ++ [.isMatch c])
      (passed : ∀ x ∈ before, x.passesOver = true) (unique : matcher.isUnique = true) : Closes matcher rest said said
  /-- The metadata of the last candidate that was judged is needed and failed. -/
  | failed {before : List Verdict} {f : Failure} (ends : said = before ++ [.failed f])
      (passed : ∀ x ∈ before, x.passesOver = true) (needed : matcher.needsMetadata = true) : Closes matcher rest said said

/-- Either there are matches, or it is reported once that there are none, or there is one failure. -/
def Conclusive (verdicts : List Verdict) : Prop :=
  0 < verdicts.countP Verdict.isAMatch ∧ verdicts.count .noMatch = 0 ∧ verdicts.countP Verdict.isAFailure = 0 ∨
  verdicts.countP Verdict.isAMatch = 0 ∧ verdicts.count .noMatch = 1 ∧ verdicts.countP Verdict.isAFailure = 0 ∨
  verdicts.countP Verdict.isAMatch = 0 ∧ verdicts.count .noMatch = 0 ∧ verdicts.countP Verdict.isAFailure = 1

theorem not_of_passesOver {x : Verdict} (h : x.passesOver = true) :
    x.isAMatch = false ∧ x ≠ .noMatch ∧ x.isAFailure = false := by
  cases x with
  | notMatched | rejected => exact ⟨rfl, nofun, rfl⟩
  | isMatch | noMatch | failed => nomatch h

theorem settles_of_passesOver {matcher : Matcher} {x : Verdict} (h : x.passesOver = true) : x.settles matcher = false := by
  cases x with
  | notMatched | rejected => rfl
  | isMatch | noMatch | failed => nomatch h

/-- Verdicts that pass over versions are neither matches nor failures, and do not report that there is no match. -/
theorem counts_of_passed {before : List Verdict} (h : ∀ x ∈ before, x.passesOver = true) :
    before.countP Verdict.isAMatch = 0 ∧ before.count .noMatch = 0 ∧ before.countP Verdict.isAFailure = 0 :=
  ⟨List.countP_eq_zero.mpr fun x hx => by simp [(not_of_passesOver (h x hx)).1],
    List.count_eq_zero.mpr fun hx => (not_of_passesOver (h _ hx)).2.1 rfl,
    List.countP_eq_zero.mpr fun x hx => by simp [(not_of_passesOver (h x hx)).2.2]⟩

theorem Closes.conclusive {rest : List Candidate} {said verdicts : List Verdict} (h : Closes matcher rest said verdicts) :
    Conclusive verdicts := by
  cases h with
  | nothing all passed =>
    obtain ⟨hm, hn, hf⟩ := counts_of_passed passed
    refine Or.inr (Or.inl ⟨?_, ?_, ?_⟩) <;> simp [hm, hn, hf, Verdict.isAMatch, Verdict.isAFailure]
  | several all many found sound =>
    refine Or.inl ⟨List.countP_pos_iff.mpr found, List.count_eq_zero.mpr fun hx => ?_, List.countP_eq_zero.mpr fun x hx => ?_⟩
    · rcases sound _ hx with h | h <;> nomatch h
    · rcases sound x hx with h | h
      · cases x <;> simp_all [Verdict.isAMatch, Verdict.isAFailure]
      · simp [(not_of_passesOver h).2.2]
  | one ends passed unique =>
    obtain ⟨hm, hn, hf⟩ := counts_of_passed passed
    subst ends
    refine Or.inl ⟨?_, ?_, ?_⟩ <;> simp [hm, hn, hf, Verdict.isAMatch, Verdict.isAFailure]
  | failed ends passed needed =>
    obtain ⟨hm, hn, hf⟩ := counts_of_passed passed
    subst ends
    refine Or.inr (Or.inr ⟨?_, ?_, ?_⟩) <;> simp [hm, hn, hf, Verdict.isAMatch, Verdict.isAFailure]

variable {matcher rules outcomes}

/-- After a verdict that does not settle the selection, the version is a match or is passed over. -/
theorem isAMatch_or_passesOver_of_not_settles {c : Candidate}
    (h : (judgeAt matcher rules outcomes c).settles matcher = false) :
    (judgeAt matcher rules outcomes c).isAMatch = true ∧ matcher.isUnique = false ∨
      (judgeAt matcher rules outcomes c).passesOver = true := by
  have hjudges := judges_judge matcher rules (outcomes.getD c.position .unknown) c
  unfold judgeAt at h ⊢
  generalize judge matcher rules (outcomes.getD c.position .unknown) c = verdict at h hjudges ⊢
  cases hjudges with
  | notMatched => exact Or.inr rfl
  | rejected => exact Or.inr rfl
  | failed => nomatch h
  | isMatch => exact Or.inl ⟨rfl, h⟩

theorem unique_of_needsMetadata (h : matcher.needsMetadata = true) : matcher.isUnique = true := by
  cases hu : matcher.isUnique with
  | true => rfl
  | false => nomatch h.symm.trans (needsMetadata_of_not_unique hu)

/-- A verdict that settles the selection is a match of a selector of one version, or a failure of metadata that is needed. -/
theorem match_or_failure_of_settles {c : Candidate} (h : (judgeAt matcher rules outcomes c).settles matcher = true) :
    judgeAt matcher rules outcomes c = .isMatch c.component ∧ matcher.isUnique = true ∨
      (∃ f, judgeAt matcher rules outcomes c = .failed f) ∧ matcher.needsMetadata = true := by
  have hjudges := judges_judge matcher rules (outcomes.getD c.position .unknown) c
  unfold judgeAt at h ⊢
  generalize judge matcher rules (outcomes.getD c.position .unknown) c = verdict at h hjudges ⊢
  cases hjudges with
  | notMatched => nomatch h
  | rejected => nomatch h
  | @failed f _ needed => exact Or.inr ⟨⟨f, rfl⟩, needed⟩
  | isMatch => exact Or.inl ⟨rfl, h⟩

/-- Before a verdict that settles the selection, every version is passed over. -/
theorem passesOver_of_unique (hu : matcher.isUnique = true) {cs : List Candidate}
    (h : ∀ c ∈ cs, (judgeAt matcher rules outcomes c).settles matcher = false) :
    ∀ x ∈ cs.map (judgeAt matcher rules outcomes), x.passesOver = true := by
  rintro x hx
  obtain ⟨c, hc, rfl⟩ := List.mem_map.mp hx
  rcases isAMatch_or_passesOver_of_not_settles (h c hc) with ⟨-, hmany⟩ | hpassed
  · nomatch hu.symm.trans hmany
  · exact hpassed

variable (matcher rules outcomes) in
/-- A walk gives one verdict on each candidate from the first one on, and closes. -/
theorem closes_walk (cs : List Candidate) :
    ∃ walked rest, cs = walked ++ rest ∧ Closes matcher rest (walked.map (judgeAt matcher rules outcomes))
      ((walk matcher rules false cs).run outcomes).1 := by
  rcases run_walk_cases matcher rules outcomes cs false with ⟨hgoes, hrun⟩ | ⟨before, c, after, rfl, hgoes, hsettles, hrun⟩
  · refine ⟨cs, [], (List.append_nil cs).symm, ?_⟩
    rw [hrun, Bool.false_or]
    by_cases hany : (cs.any fun c => (judgeAt matcher rules outcomes c).isAMatch) = true
    · rw [if_pos hany, List.append_nil]
      obtain ⟨c, hc, hmatch⟩ := List.any_eq_true.mp hany
      have hmany : matcher.isUnique = false := by
        rcases isAMatch_or_passesOver_of_not_settles (hgoes c hc) with ⟨-, hmany⟩ | hpassed
        · exact hmany
        · nomatch hmatch.symm.trans (not_of_passesOver hpassed).1
      refine .several rfl hmany ⟨_, List.mem_map_of_mem hc, hmatch⟩ fun x hx => ?_
      obtain ⟨d, hd, rfl⟩ := List.mem_map.mp hx
      exact (isAMatch_or_passesOver_of_not_settles (hgoes d hd)).imp_left And.left
    · rw [if_neg hany]
      refine .nothing rfl fun x hx => ?_
      obtain ⟨d, hd, rfl⟩ := List.mem_map.mp hx
      refine (isAMatch_or_passesOver_of_not_settles (hgoes d hd)).resolve_left fun h => hany ?_
      exact List.any_eq_true.mpr ⟨d, hd, h.1⟩
  · refine ⟨before ++ [c], after, by simp, ?_⟩
    rw [hrun, List.map_append, List.map_singleton]
    rcases match_or_failure_of_settles hsettles with ⟨hmatch, hu⟩ | ⟨⟨f, hfailed⟩, hn⟩
    · rw [hmatch]
      exact .one rfl (passesOver_of_unique hu hgoes) hu
    · rw [hfailed]
      exact .failed rfl (passesOver_of_unique (unique_of_needsMetadata hn) hgoes) hn

/-- The match of a selector of one version is the newest candidate that can be selected. -/
theorem Closes.newest {walked rest : List Candidate} {verdicts : List Verdict} {component : Component}
    (h : Closes matcher rest (walked.map (judgeAt matcher rules outcomes)) verdicts) (hu : matcher.isUnique = true)
    (hsorted : (walked ++ rest).Pairwise Candidate.NoOlder) (hm : .isMatch component ∈ verdicts) :
    ∃ c ∈ walked ++ rest, c.component = component ∧ Selectable matcher rules (outcomes.getD c.position .unknown) c ∧
      ∀ d ∈ walked ++ rest, Selectable matcher rules (outcomes.getD d.position .unknown) d → Candidate.NoOlder c d := by
  have hnever : ∀ before : List Verdict, (∀ x ∈ before, x.passesOver = true) → .isMatch component ∉ before :=
    fun before hpassed hx => nomatch hpassed _ hx
  cases h with
  | nothing all passed =>
    rcases List.mem_append.mp hm with hx | hx
    · exact absurd hx (hnever _ passed)
    · simp at hx
  | several all many found sound => nomatch hu.symm.trans many
  | @one before e ends passed unique =>
    obtain ⟨older, last, rfl, hbefore, hlast⟩ := List.map_eq_append_iff.mp ends
    obtain ⟨c, rfl, hc⟩ := List.map_eq_singleton_iff.mp hlast
    obtain ⟨rfl, hselectable⟩ := judge_eq_isMatch_iff.mp hc
    have hcomponent : component = c.component := by
      rw [ends, List.mem_append, List.mem_singleton] at hm
      exact Verdict.isMatch.inj (hm.resolve_left (hnever _ passed))
    refine ⟨c, by simp, hcomponent.symm, hselectable, fun d hd hd' => ?_⟩
    rw [List.append_assoc, List.singleton_append] at hd hsorted
    rcases List.mem_append.mp hd with hd | hd
    · have hjudged : judgeAt matcher rules outcomes d = _ := judge_eq_isMatch_iff.mpr ⟨rfl, hd'⟩
      have hpassed := passed _ (hbefore ▸ List.mem_map_of_mem hd)
      rw [hjudged] at hpassed
      nomatch hpassed
    · rcases List.mem_cons.mp hd with rfl | hd
      · exact Std.ReflCmp.isLE_rfl
      · exact List.rel_of_pairwise_cons (List.pairwise_append.mp hsorted).2.1 hd
  | @failed before f ends passed needed =>
    rw [ends, List.mem_append, List.mem_singleton] at hm
    rcases hm with hx | hx
    · exact absurd hx (hnever _ passed)
    · nomatch hx

/-- Where several versions may be selected, a candidate is selected if it is admitted. -/
theorem component?_judge_of_not_unique (hu : matcher.isUnique = false) (o : LookupOutcome) (c : Candidate) :
    (judge matcher rules o c).component? = if admits matcher rules c.version then some c.component else none := by
  have hn := needsMetadata_of_not_unique hu
  unfold judge ruled admits
  cases ha : matcher.accepts c.version <;> cases hr : rules.rejects c.version <;>
    simp [hn, Verdict.component?]

/-- A selector of several versions matches every candidate that it admits. -/
theorem Closes.every {walked rest : List Candidate} {verdicts : List Verdict}
    (h : Closes matcher rest (walked.map (judgeAt matcher rules outcomes)) verdicts) (hu : matcher.isUnique = false) :
    verdicts.filterMap Verdict.component? =
      ((walked ++ rest).filter fun c => admits matcher rules c.version).map (·.component) := by
  have hsaid : (walked.map (judgeAt matcher rules outcomes)).filterMap Verdict.component? =
      (walked.filter fun c => admits matcher rules c.version).map (·.component) := by
    rw [List.filterMap_map, ← List.filterMap_eq_map, List.filterMap_filter]
    exact List.filterMap_congr fun c _ => component?_judge_of_not_unique hu _ c
  cases h with
  | nothing all passed => rw [all, List.append_nil, List.filterMap_append, hsaid]; simp [Verdict.component?]
  | several all many found sound => rw [all, List.append_nil, hsaid]
  | one ends passed unique => nomatch hu.symm.trans unique
  | failed ends passed needed => nomatch needed.symm.trans (needsMetadata_of_not_unique hu)

/-- What the standard policy reports, whatever the candidates are and whatever is known of their metadata. It takes them from the
newest to the oldest, those of one version as they are offered, and gives one verdict on each until the selection is settled. Of a
selector that cannot be read it reports nothing but that failure. -/
theorem standard_reports (rules : Rules) (turn : Nat) (candidates : List Candidate) (request : Request)
    (outcomes : List LookupOutcome) :
    let sorted := Candidate.newestFirst candidates
    let verdicts := (((standard rules).select turn candidates request).run outcomes).1
    let known (c : Candidate) := outcomes.getD c.position .unknown
    (sorted.Perm candidates ∧ sorted.Pairwise Candidate.NoOlder ∧
      ∀ v, sorted.filter (·.version == v) = candidates.filter (·.version == v)) ∧
    Conclusive verdicts ∧
    match Matcher.ofSelector request.selector with
    | .error e => verdicts = [.failed (.selection request.text e.message)]
    | .ok matcher =>
      (∃ walked rest said, sorted = walked ++ rest ∧
        List.Forall₂ (fun c verdict => Judges matcher rules (known c) c verdict) walked said ∧
        Closes matcher rest said verdicts) ∧
      (matcher.isUnique = true → ∀ component, .isMatch component ∈ verdicts →
        ∃ c ∈ candidates, c.component = component ∧ Selectable matcher rules (known c) c ∧
          ∀ d ∈ candidates, Selectable matcher rules (known d) d → Candidate.NoOlder c d) ∧
      (matcher.isUnique = false →
        verdicts.filterMap Verdict.component? =
          (sorted.filter fun c => admits matcher rules c.version).map (·.component)) := by
  intro sorted verdicts known
  have hperm : sorted.Perm candidates := List.mergeSort_perm candidates _
  have hsorted : sorted.Pairwise Candidate.NoOlder := Candidate.pairwise_newestFirst candidates
  have hverdicts : verdicts = ((standardSelect rules candidates request).run outcomes).1 := rfl
  refine ⟨⟨hperm, hsorted, Candidate.filter_newestFirst candidates⟩, ?_⟩
  unfold standardSelect at hverdicts
  cases hsel : Matcher.ofSelector request.selector with
  | error e =>
    rw [hsel] at hverdicts
    have hfailed : verdicts = [.failed (.selection request.text e.message)] := hverdicts
    refine ⟨?_, hfailed⟩
    rw [hfailed]
    exact Or.inr (Or.inr ⟨rfl, by simp, rfl⟩)
  | ok matcher =>
    rw [hsel] at hverdicts
    obtain ⟨walked, rest, hsplit, hcloses⟩ := closes_walk matcher rules outcomes sorted
    change Closes matcher rest _ ((walk matcher rules false (Candidate.newestFirst candidates)).run outcomes).1 at hcloses
    rw [← hverdicts] at hcloses
    refine ⟨hcloses.conclusive, ⟨walked, rest, _, hsplit, ?_, hcloses⟩, fun hu component hm => ?_, fun hu => ?_⟩
    · rw [List.forall₂_map_right_iff, List.forall₂_same]
      exact fun c _ => judges_judge matcher rules (known c) c
    · have hnewest := hcloses.newest hu (hsplit ▸ hsorted) hm
      rw [← hsplit] at hnewest
      simp only [hperm.mem_iff] at hnewest
      exact hnewest
    · rw [hsplit]
      exact hcloses.every hu

end Policy

end VersionChain
