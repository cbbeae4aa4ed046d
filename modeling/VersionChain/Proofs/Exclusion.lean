import VersionChain.Proofs.Economy

/-!
# What an excluded version does to a selection

A rule keeps a version from being selected, not from being judged: whether a version is of the status that a selector asks for is
read from its metadata before the rules are looked at. So the one thing that an excluded version can do is to fail. Otherwise a
selection comes to the same as one that is not offered the excluded versions at all, and has no rules.
-/

namespace VersionChain

/-! ## Leaving candidates out -/

namespace Candidate

/-- Where candidates are in order, those of a kind are in order, and a candidate takes its place among them. -/
theorem filter_orderedInsert (p : Candidate → Bool) (c : Candidate) {cs : List Candidate} (h : cs.Pairwise NoOlder) :
    (cs.orderedInsert NoOlder c).filter p = if p c then (cs.filter p).orderedInsert NoOlder c else cs.filter p := by
  induction cs with
  | nil => simp [List.filter_cons]
  | cons b cs ih =>
    obtain ⟨hb, hcs⟩ := List.pairwise_cons.mp h
    by_cases hcb : NoOlder c b
    · -- the candidate comes before all others, so also before those that are left
      have hfirst : ∀ x ∈ (b :: cs).filter p, NoOlder c x := by
        intro x hx
        rcases List.mem_cons.mp (List.mem_of_mem_filter hx) with rfl | hx
        · exact hcb
        · exact noOlder_trans c b x hcb (hb x hx)
      rw [List.orderedInsert_cons_of_le _ _ hcb, List.filter_cons]
      generalize (b :: cs).filter p = kept at hfirst
      cases kept with
      | nil => rfl
      | cons x kept => rw [List.orderedInsert_cons_of_le _ _ (hfirst x List.mem_cons_self)]
    · rw [List.orderedInsert_of_not_le _ _ hcb, List.filter_cons, List.filter_cons, ih hcs]
      by_cases hpb : p b = true
      · rw [if_pos hpb, if_pos hpb, List.orderedInsert_of_not_le _ _ hcb]
        split <;> rfl
      · rw [if_neg hpb, if_neg hpb]

/-- Candidates that are left out change nothing about the order of the others. -/
theorem newestFirst_filter (p : Candidate → Bool) (cs : List Candidate) :
    newestFirst (cs.filter p) = (newestFirst cs).filter p := by
  induction cs with
  | nil => simp [newestFirst]
  | cons c cs ih =>
    rw [newestFirst_cons, filter_orderedInsert p c (pairwise_newestFirst cs), List.filter_cons]
    by_cases hp : p c = true
    · rw [if_pos hp, if_pos hp, newestFirst_cons, ih]
    · rw [if_neg hp, if_neg hp, ih]

end Candidate

/-! ## What a selection comes to -/

/-- What a selection comes to: its verdicts, but for those that pass over a version. -/
def Selection.told (selection : Selection) (outcomes : List LookupOutcome) : List Verdict :=
  (selection.run outcomes).1.filter fun x => !x.passesOver

namespace Policy

variable {matcher : Matcher} {rules : Rules} {outcomes : List LookupOutcome}

/-- The candidates that no rule excludes, each with its place in the offer and so with its metadata. -/
def allowed (rules : Rules) (cs : List Candidate) : List Candidate := cs.filter fun c => !rules.rejects c.version

/-- The first of the candidates that can be selected or whose metadata fails is an excluded one, which fails. -/
def Preempted (matcher : Matcher) (rules : Rules) (outcomes : List LookupOutcome) (cs : List Candidate) (f : Failure) : Prop :=
  ∃ before c after, cs = before ++ c :: after ∧
    (∀ b ∈ before, ¬Selectable matcher rules (outcomes.getD b.position .unknown) b ∧
      (outcomes.getD b.position .unknown).isFailure = false) ∧
    rules.rejects c.version = true ∧ (outcomes.getD c.position .unknown).result = some (.failed f)

theorem Preempted.cons {c : Candidate} {cs : List Candidate} {f : Failure} (h : Preempted matcher rules outcomes cs f)
    (hs : ¬Selectable matcher rules (outcomes.getD c.position .unknown) c)
    (hf : (outcomes.getD c.position .unknown).isFailure = false) : Preempted matcher rules outcomes (c :: cs) f := by
  obtain ⟨before, d, after, rfl, hbefore, hd⟩ := h
  exact ⟨c :: before, d, after, rfl, List.forall_mem_cons.mpr ⟨⟨hs, hf⟩, hbefore⟩, hd⟩

/-! ## The walk -/

/-- No rule makes a difference to the verdict on a candidate that is not excluded. -/
theorem judge_of_allowed {c : Candidate} (h : rules.rejects c.version = false) (o : LookupOutcome) :
    judge matcher rules o c = judge matcher {} o c := by
  have hruled : ruled rules c = ruled {} c := by
    rw [ruled, h]
    rfl
  unfold judge inspected
  rw [hruled]

/-- What a walk comes to is not changed by a candidate that is passed over. -/
theorem told_walk_of_passesOver {c : Candidate} (h : (judgeAt matcher rules outcomes c).passesOver = true) (cs : List Candidate)
    (found : Bool) : (walk matcher rules found (c :: cs)).told outcomes = (walk matcher rules found cs).told outcomes := by
  unfold Selection.told
  rw [run_walk_judge, settles_of_passesOver h, (not_of_passesOver h).1, Bool.or_false, List.filter_cons_of_neg (by simp [h])]
  rfl

/-- Where metadata is needed, a walk goes on after a candidate that cannot be selected and does not fail. -/
theorem passesOver_judgeAt (hn : matcher.needsMetadata = true) {c : Candidate}
    (hs : ¬Selectable matcher rules (outcomes.getD c.position .unknown) c)
    (hf : (outcomes.getD c.position .unknown).isFailure = false) : (judgeAt matcher rules outcomes c).passesOver = true := by
  refine passesOver_judge (unique_of_needsMetadata hn) ?_
  rw [settles_judge_of_needsMetadata hn, hf, Bool.or_false]
  exact Bool.eq_false_iff.mpr fun h => hs (selectable_iff.mpr h)

/-- A walk that is preempted tells nothing but the failure. -/
theorem Preempted.told_walk (hn : matcher.needsMetadata = true) {cs : List Candidate} {f : Failure}
    (h : Preempted matcher rules outcomes cs f) (found : Bool) :
    (walk matcher rules found cs).told outcomes = [.failed f] := by
  obtain ⟨before, c, after, rfl, hbefore, -, hfails⟩ := h
  induction before with
  | nil =>
    have hfailed : judgeAt matcher rules outcomes c = .failed f :=
      judge_eq_failed_iff.mpr ⟨accepts_of_needsMetadata hn _, hn, hfails⟩
    unfold Selection.told
    rw [List.nil_append, run_walk_judge, hfailed]
    rfl
  | cons b before ih =>
    obtain ⟨⟨hs, hf⟩, hbefore⟩ := List.forall_mem_cons.mp hbefore
    rw [List.cons_append, told_walk_of_passesOver (passesOver_judgeAt hn hs hf)]
    exact ih hbefore

/-- An excluded candidate is passed over, unless it is the failure of its metadata that is told. -/
theorem passesOver_of_excluded {c : Candidate} (h : rules.rejects c.version = true)
    (hf : matcher.needsMetadata = true → (outcomes.getD c.position .unknown).isFailure = false) :
    (judgeAt matcher rules outcomes c).passesOver = true := by
  have hjudges := judges_judge matcher rules (outcomes.getD c.position .unknown) c
  unfold judgeAt
  generalize judge matcher rules (outcomes.getD c.position .unknown) c = verdict at hjudges
  cases hjudges with
  | notMatched | rejected => rfl
  | @failed f accepted needed fails => nomatch (hf needed).symm.trans (LookupOutcome.isFailure_iff.mpr ⟨f, fails⟩)
  | isMatch asked allowed => nomatch h.symm.trans allowed

/-- A walk that is not preempted comes to the same as one through the allowed candidates, without rules. -/
theorem told_walk_allowed {cs : List Candidate} (h : matcher.needsMetadata = true → ∀ f, ¬Preempted matcher rules outcomes cs f) :
    ∀ found : Bool,
      (walk matcher rules found cs).told outcomes = (walk matcher {} found (allowed rules cs)).told outcomes := by
  induction cs with
  | nil => exact fun _ => rfl
  | cons c cs ih =>
    intro found
    by_cases hr : rules.rejects c.version = true
    · have hf : matcher.needsMetadata = true → (outcomes.getD c.position .unknown).isFailure = false := by
        intro hn
        refine Bool.eq_false_iff.mpr fun hfails => ?_
        obtain ⟨f, hf⟩ := LookupOutcome.isFailure_iff.mp hfails
        exact h hn f ⟨[], c, cs, rfl, nofun, hr, hf⟩
      have hrest := ih fun hn f hpre => h hn f (hpre.cons (fun hs => nomatch hs.2.symm.trans hr) (hf hn))
      rw [told_walk_of_passesOver (passesOver_of_excluded hr hf), hrest, allowed, allowed, List.filter_cons_of_neg (by simp [hr])]
    · have hallowed : rules.rejects c.version = false := by simpa using hr
      have hsame : judgeAt matcher {} outcomes c = judgeAt matcher rules outcomes c := (judge_of_allowed hallowed _).symm
      have hfirst : allowed rules (c :: cs) = c :: allowed rules cs := List.filter_cons_of_pos (by simp [hallowed])
      rw [hfirst]
      unfold Selection.told at ih ⊢
      rw [run_walk_judge, run_walk_judge, hsame]
      by_cases hend : (judgeAt matcher rules outcomes c).settles matcher = true
      · rw [if_pos hend, if_pos hend]
      · have hrest := ih fun hn f hpre => by
          rw [judgeAt, settles_judge_of_needsMetadata hn, Bool.or_eq_true, not_or] at hend
          exact h hn f (hpre.cons (fun hs => hend.1 (selectable_iff.mp hs)) (Bool.eq_false_iff.mpr hend.2))
        rw [if_neg hend, if_neg hend, List.filter_cons, List.filter_cons, hrest]

/-! ## The selection -/

/-- Excluded versions have no influence on what a selection comes to, but for one. Under a selector that asks for a status, the
metadata of an excluded version may fail before any version is selected, and then nothing but this failure is told. Otherwise the
standard policy comes to the same as without rules on the candidates that no rule excludes. -/
theorem excluded_only_preempt (rules : Rules) (turn : Nat) (candidates : List Candidate) (request : Request)
    (outcomes : List LookupOutcome) :
    let told := ((standard rules).select turn candidates request).told outcomes
    let toldOfAllowed := ((standard {}).select turn (allowed rules candidates) request).told outcomes
    let preempts (f : Failure) := ∃ status, Matcher.ofSelector request.selector = .ok (.latest (some status)) ∧
      Preempted (.latest (some status)) rules outcomes (Candidate.newestFirst candidates) f
    (∀ f, preempts f → told = [.failed f]) ∧ ((∀ f, ¬preempts f) → told = toldOfAllowed) := by
  intro told toldOfAllowed preempts
  have hselect : ∀ rules cs, (standard rules).select turn cs request = standardSelect rules cs request := fun _ _ => rfl
  refine ⟨fun f ⟨status, hsel, hpre⟩ => ?_, fun hnone => ?_⟩
  · unfold told
    rw [hselect, standardSelect, hsel]
    exact hpre.told_walk rfl false
  · unfold told toldOfAllowed
    rw [hselect, hselect, standardSelect, standardSelect, allowed, Candidate.newestFirst_filter]
    cases hsel : Matcher.ofSelector request.selector with
    | error e => rfl
    | ok matcher =>
      refine told_walk_allowed (fun hn f hpre => ?_) false
      obtain ⟨status, rfl⟩ := Matcher.eq_latest_of_needsMetadata hn
      exact hnone f ⟨status, hsel, hpre⟩

/-- Rules that exclude every version `…-SNAPSHOT`. -/
def noSnapshots : Rules := ⟨[⟨.anyText :: "-SNAPSHOT".toList.map .literal⟩]⟩

/-- An excluded version can make a selection fail. The metadata of the newest version is broken, and so the release before it is not
selected, though the newest one is excluded. -/
theorem not_all_exclusions_silent :
    ¬∀ (rules : Rules) (turn : Nat) (candidates : List Candidate) (request : Request) (outcomes : List LookupOutcome),
      let verdicts := (((standard rules).select turn candidates request).run outcomes).1
      let verdictsOfAllowed := (((standard {}).select turn (allowed rules candidates) request).run outcomes).1
      verdicts.filterMap Verdict.component? = verdictsOfAllowed.filterMap Verdict.component? ∧
        (.noMatch ∈ verdicts ↔ .noMatch ∈ verdictsOfAllowed) ∧
        verdicts.any Verdict.isAFailure = verdictsOfAllowed.any Verdict.isAFailure := by
  intro h
  let request : Request := ⟨"g", "n", "latest.release"⟩
  have hsame := h noSnapshots 0 (Candidate.offer request ["2.0-SNAPSHOT", "1.0"]) request
    [.of (.failed (.access "r" .remote "g:n:2.0-SNAPSHOT" "broken descriptor")),
      .of (.resolved (.facts (.plain ⟨"g", "n", "1.0"⟩)))]
  rw [standard_eq, standard_eq] at hsame
  revert hsame
  decide +kernel

end Policy

end VersionChain
