import VersionChain.Proofs.Exclusion
import VersionChain.Proofs.Widening

/-!
# Ranges as intervals

A range tests its ends by value, while candidates are judged in the linear order, where the text decides between versions of one
value. The linear order refines the one by value, so an end that admits a version admits all that lie farther inside. A range is
therefore an interval of the linear order that never parts versions of one value, and candidates from the newest to the oldest fall
into three stretches: those beyond the upper end, those in the range, and those beyond the lower end.
-/

namespace VersionChain

/-! ## Towards one side -/

namespace Version

/-- By value, the first version lies on the given side of the second one or is level with it. -/
def IsTowards (side : Ordering) (w v : Version) : Prop := w.semanticCompare v = side ∨ w.semanticCompare v = .eq

/-- Versions that are in order are in order by value, as far as that tells them apart. -/
theorem isTowards_lt_of_isLE {v w : Version} (h : (compare w v).isLE = true) : w.IsTowards .lt v := by
  by_cases hlevel : w.semanticCompare v = .eq
  · exact Or.inr hlevel
  · rw [compare_of_semanticCompare_ne hlevel] at h
    exact Ordering.isLE_iff_eq_lt_or_eq_eq.mp h

theorem isTowards_gt_of_isLE {v w : Version} (h : (compare v w).isLE = true) : w.IsTowards .gt v :=
  (isTowards_lt_of_isLE h).imp Std.OrientedCmp.gt_of_lt Std.OrientedCmp.eq_symm

end Version

namespace Bound

variable {side : Ordering} {v w : Version}

/-- A bound that admits a version admits every version that is level with it or farther on the side of the bound. -/
theorem admits_of_isTowards (hside : side ≠ .eq) {b : Bound} (h : w.IsTowards side v) (hv : b.admits side v = true) :
    b.admits side w = true := by
  rw [admits_iff hside] at hv ⊢
  rcases hv with hbeyond | ⟨hlevel, hincl⟩
  · have hbefore : b.version.semanticCompare v = side.swap := by
      rw [← hbeyond]
      exact Std.OrientedCmp.eq_swap
    exact Or.inl (Version.semanticCompare_beyond hbefore h)
  · -- the bound itself is level with the version that it admits
    have hsame : w.semanticCompare v = w.semanticCompare b.version := Std.TransCmp.congr_right hlevel
    rw [← hsame]
    exact h.imp_right fun heq => ⟨heq, hincl⟩

/-- The same of an end of a range, which may be open. -/
theorem all_admits_of_isTowards (hside : side ≠ .eq) {bound : Option Bound} (h : w.IsTowards side v)
    (hv : bound.all (·.admits side v) = true) : bound.all (·.admits side w) = true := by
  cases bound with
  | none => rfl
  | some b => exact admits_of_isTowards hside h hv

/-- A bound does not tell apart versions that are level. -/
theorem admits_congr {b : Bound} (h : v.semanticCompare w = .eq) : b.admits side v = b.admits side w := by
  unfold admits
  rw [Std.TransCmp.congr_left h]

end Bound

/-! ## Intervals -/

namespace Matcher

variable {lower upper : Option Bound} {a b c : Version}

theorem accepts_range_iff :
    (range lower upper).accepts a = true ↔
      lower.all (·.admits .gt a) = true ∧ upper.all (·.admits .lt a) = true :=
  Bool.and_eq_true_iff

/-- Between two versions in a range, every version is in the range. -/
theorem accepts_of_between (hab : (Version.compare a b).isLE = true) (hbc : (Version.compare b c).isLE = true)
    (ha : (range lower upper).accepts a = true) (hc : (range lower upper).accepts c = true) :
    (range lower upper).accepts b = true := by
  rw [accepts_range_iff] at ha hc ⊢
  exact ⟨Bound.all_admits_of_isTowards (by decide) (Version.isTowards_gt_of_isLE hab) ha.1,
    Bound.all_admits_of_isTowards (by decide) (Version.isTowards_lt_of_isLE hbc) hc.2⟩

/-- Of versions that are level, a range accepts both or neither. -/
theorem accepts_range_congr (h : a.semanticCompare b = .eq) : (range lower upper).accepts a = (range lower upper).accepts b := by
  unfold accepts
  simp only [Bound.admits_congr h]

end Matcher

/-! ## The three stretches of a walk -/

namespace Verdict

/-- Whether the verdict is that a rule excludes the version. -/
def isARejection : Verdict → Bool
  | rejected _ => true
  | _ => false

/-- Leaving rejections aside leaves all matches. -/
theorem any_isAMatch_filter (verdicts : List Verdict) :
    (verdicts.filter (!·.isARejection)).any isAMatch = verdicts.any isAMatch := by
  have hmatch : ∀ x : Verdict, (!x.isARejection && x.isAMatch) = x.isAMatch := by
    intro x
    cases x <;> rfl
  simp only [List.any_filter, hmatch]

end Verdict

namespace Policy

variable {lower upper : Option Bound} {rules : Rules} {outcomes : List LookupOutcome}

/-- A range divides candidates: first come those beyond its upper end, then those in it, then those beyond its lower end. -/
structure Divides (lower upper : Option Bound) (cs newer block older : List Candidate) : Prop where
  whole : cs = newer ++ block ++ older
  newer : ∀ c ∈ newer, upper.all (·.admits .lt c.version) = false
  block : ∀ c ∈ block, (Matcher.range lower upper).accepts c.version = true
  older : ∀ c ∈ older, lower.all (·.admits .gt c.version) = false

/-- Every range divides the candidates from the newest to the oldest. -/
theorem exists_divides (lower upper : Option Bound) {cs : List Candidate} (h : cs.Pairwise Candidate.NoOlder) :
    ∃ newer block older, Divides lower upper cs newer block older := by
  induction cs with
  | nil => exact ⟨[], [], [], rfl, nofun, nofun, nofun⟩
  | cons c cs ih =>
    obtain ⟨hfirst, hcs⟩ := List.pairwise_cons.mp h
    obtain ⟨newer, block, older, rfl, hnewer, hblock, holder⟩ := ih hcs
    cases hupper : upper.all (·.admits .lt c.version) with
    | false => exact ⟨c :: newer, block, older, rfl, List.forall_mem_cons.mpr ⟨hupper, hnewer⟩, hblock, holder⟩
    | true =>
      -- what the upper end admits, it admits further down
      have hnone : newer = [] := by
        rw [List.eq_nil_iff_forall_not_mem]
        intro d hd
        have hno : Candidate.NoOlder c d := hfirst d (by simp [hd])
        have hadmitted := Bound.all_admits_of_isTowards (by decide) (Version.isTowards_lt_of_isLE hno) hupper
        rw [hnewer d hd] at hadmitted
        nomatch hadmitted
      subst hnone
      cases hlower : lower.all (·.admits .gt c.version) with
      | true =>
        exact ⟨[], c :: block, older, rfl, nofun,
          List.forall_mem_cons.mpr ⟨Matcher.accepts_range_iff.mpr ⟨hlower, hupper⟩, hblock⟩, holder⟩
      | false =>
        -- what the lower end does not admit, it does not admit further down
        have hempty : block = [] := by
          rw [List.eq_nil_iff_forall_not_mem]
          intro d hd
          have hno : Candidate.NoOlder c d := hfirst d (by simp [hd])
          have hinside := (Matcher.accepts_range_iff.mp (hblock d hd)).1
          have hadmitted := Bound.all_admits_of_isTowards (by decide) (Version.isTowards_gt_of_isLE hno) hinside
          rw [hlower] at hadmitted
          nomatch hadmitted
        subst hempty
        exact ⟨[], [], c :: older, rfl, nofun, nofun, List.forall_mem_cons.mpr ⟨hlower, holder⟩⟩

/-- A selector of several versions judges every candidate, and reports in the end if none is a match. -/
theorem run_walk_several {matcher : Matcher} (hu : matcher.isUnique = false) (rules : Rules) (outcomes : List LookupOutcome)
    (cs : List Candidate) :
    ((walk matcher rules false cs).run outcomes).1 = cs.map (judgeAt matcher rules outcomes) ++
      (if cs.any fun c => (judgeAt matcher rules outcomes c).isAMatch then [] else [.noMatch]) := by
  rcases run_walk_cases matcher rules outcomes cs false with ⟨-, hrun⟩ | ⟨before, c, after, -, -, hsettles, -⟩
  · exact hrun
  · rcases match_or_failure_of_settles hsettles with ⟨-, hone⟩ | ⟨-, hneeded⟩
    · nomatch hu.symm.trans hone
    · nomatch hu.symm.trans (unique_of_needsMetadata hneeded)

theorem judgeAt_range_of_accepts {c : Candidate} (h : (Matcher.range lower upper).accepts c.version = true) :
    judgeAt (.range lower upper) rules outcomes c = ruled rules c :=
  judge_of_asksFor ⟨h, nofun⟩

theorem judgeAt_range_of_not_accepts {c : Candidate} (h : (Matcher.range lower upper).accepts c.version = false) :
    judgeAt (.range lower upper) rules outcomes c = .notMatched c.component.version :=
  (judges_iff.mp (.notMatched (Or.inl h))).symm

/-- The verdicts on candidates none of which is matched. -/
def noneMatched (cs : List Candidate) : List Verdict := cs.map fun c => .notMatched c.component.version

theorem any_isAMatch_noneMatched (cs : List Candidate) : (noneMatched cs).any Verdict.isAMatch = false := by
  rw [noneMatched, List.any_map, List.any_eq_false]
  intro c _
  exact nofun

theorem filter_noneMatched (cs : List Candidate) : (noneMatched cs).filter (!·.isARejection) = noneMatched cs := by
  refine List.filter_eq_self.mpr fun x hx => ?_
  obtain ⟨c, -, rfl⟩ := List.mem_map.mp hx
  rfl

/-- Where the rules alone decide, the candidates that are not rejected are matches. -/
theorem filter_ruled (rules : Rules) (cs : List Candidate) :
    (cs.map (ruled rules)).filter (!·.isARejection) = (allowed rules cs).map fun c => .isMatch c.component := by
  induction cs with
  | nil => rfl
  | cons c cs ih =>
    unfold allowed at ih ⊢
    rw [List.map_cons, List.filter_cons, List.filter_cons, ih]
    unfold ruled
    cases rules.rejects c.version <;> rfl

/-- Where the rules alone decide, there is a match just if a candidate is allowed. -/
theorem any_isAMatch_ruled (rules : Rules) (cs : List Candidate) :
    (cs.map (ruled rules)).any Verdict.isAMatch = !(allowed rules cs).isEmpty := by
  rw [← Verdict.any_isAMatch_filter, filter_ruled, List.any_map]
  cases allowed rules cs <;> rfl

namespace Divides

variable {cs newer block older : List Candidate}

theorem not_accepts_newer (h : Divides lower upper cs newer block older) {c : Candidate} (hc : c ∈ newer) :
    (Matcher.range lower upper).accepts c.version = false := by
  rw [Bool.eq_false_iff]
  intro ha
  have hadmitted := (Matcher.accepts_range_iff.mp ha).2
  rw [h.newer c hc] at hadmitted
  nomatch hadmitted

theorem not_accepts_older (h : Divides lower upper cs newer block older) {c : Candidate} (hc : c ∈ older) :
    (Matcher.range lower upper).accepts c.version = false := by
  rw [Bool.eq_false_iff]
  intro ha
  have hadmitted := (Matcher.accepts_range_iff.mp ha).1
  rw [h.older c hc] at hadmitted
  nomatch hadmitted

/-- The candidates outside the range are not matched, and the rules decide about those in it. -/
theorem map_judgeAt (h : Divides lower upper cs newer block older) :
    cs.map (judgeAt (.range lower upper) rules outcomes) =
      noneMatched newer ++ block.map (ruled rules) ++ noneMatched older := by
  have hnewer : newer.map (judgeAt (.range lower upper) rules outcomes) = noneMatched newer :=
    List.map_congr_left fun c hc => judgeAt_range_of_not_accepts (h.not_accepts_newer hc)
  have hblock : block.map (judgeAt (.range lower upper) rules outcomes) = block.map (ruled rules) :=
    List.map_congr_left fun c hc => judgeAt_range_of_accepts (h.block c hc)
  have holder : older.map (judgeAt (.range lower upper) rules outcomes) = noneMatched older :=
    List.map_congr_left fun c hc => judgeAt_range_of_not_accepts (h.not_accepts_older hc)
  rw [h.whole, List.map_append, List.map_append, hnewer, hblock, holder]

/-- All that is reported of candidates that a range divides. -/
theorem run_walk (h : Divides lower upper cs newer block older) (rules : Rules) (outcomes : List LookupOutcome) :
    ((walk (.range lower upper) rules false cs).run outcomes).1 =
      noneMatched newer ++ block.map (ruled rules) ++ noneMatched older ++
        if (allowed rules block).isEmpty then [.noMatch] else [] := by
  have hany : (cs.any fun c => (judgeAt (.range lower upper) rules outcomes c).isAMatch) = !(allowed rules block).isEmpty := by
    have hmap : (cs.map (judgeAt (.range lower upper) rules outcomes)).any Verdict.isAMatch =
        cs.any fun c => (judgeAt (.range lower upper) rules outcomes c).isAMatch := List.any_map
    rw [← hmap, h.map_judgeAt, List.any_append, List.any_append, any_isAMatch_noneMatched, any_isAMatch_noneMatched,
      any_isAMatch_ruled, Bool.false_or, Bool.or_false]
  rw [run_walk_several rfl, h.map_judgeAt, hany]
  cases (allowed rules block).isEmpty <;> rfl

end Divides

/-- A range is an interval of the linear order, whatever its ends are, and it never parts versions that are level by value. So it
divides the candidates of a walk, and but for the rejected versions its matches lie side by side among what the walk reports: nothing
beyond the upper end is matched, nor beyond the lower one, and in between all is matched. A request for the range comes to this
walk. -/
theorem range_matches_contiguous (lower upper : Option Bound) :
    let range := Matcher.range lower upper
    (∀ a b c, (Version.compare a b).isLE = true → (Version.compare b c).isLE = true →
      range.accepts a = true → range.accepts c = true → range.accepts b = true) ∧
    (∀ a b, Version.semanticCompare a b = .eq → range.accepts a = range.accepts b) ∧
    ∀ (rules : Rules) (candidates : List Candidate) (outcomes : List LookupOutcome),
      let walked := Candidate.newestFirst candidates
      let verdicts := ((walk range rules false walked).run outcomes).1
      (∃ newer block older, Divides lower upper walked newer block older ∧
        verdicts.filter (!·.isARejection) =
          noneMatched newer ++ (allowed rules block).map (fun c => .isMatch c.component) ++ noneMatched older ++
            if (allowed rules block).isEmpty then [.noMatch] else []) ∧
      ∀ turn request, Matcher.ofSelector request.selector = .ok range →
        (((standard rules).select turn candidates request).run outcomes).1 = verdicts := by
  intro range
  refine ⟨fun a b c => Matcher.accepts_of_between, fun a b => Matcher.accepts_range_congr, ?_⟩
  intro rules candidates outcomes walked verdicts
  constructor
  · obtain ⟨newer, block, older, hdivides⟩ := exists_divides lower upper (Candidate.pairwise_newestFirst candidates)
    refine ⟨newer, block, older, hdivides, ?_⟩
    have hverdicts : verdicts = _ := hdivides.run_walk rules outcomes
    rw [hverdicts, List.filter_append, List.filter_append, List.filter_append, filter_noneMatched, filter_noneMatched,
      filter_ruled]
    cases (allowed rules block).isEmpty <;> rfl
  · intro turn request hsel
    change ((standardSelect rules candidates request).run outcomes).1 = _
    rw [standardSelect, hsel]

/-- The range from `nightly`, which has no value, up to `v1.0`, which has three spellings here, one of them excluded. -/
theorem range_matches_contiguous_spelled :
    let range := Matcher.range (some ⟨⟨"nightly"⟩, false⟩) (some ⟨⟨"v1.0"⟩, true⟩)
    let rules : Rules := ⟨[⟨"1.0.0".toList.map .literal⟩]⟩
    let request : Request := ⟨"g", "n", "]nightly,v1.0]"⟩
    let candidates := Candidate.offer request ["beta", "1.0", "snapshot", "v1.0.0", "2.0", "1.0.0", "nightly"]
    let walked := Candidate.newestFirst candidates
    let verdicts := (((standard rules).select 0 candidates request).run []).1
    ((Version.compare ⟨"snapshot"⟩ ⟨"1.0"⟩).isLE = true ∧ (Version.compare ⟨"1.0"⟩ ⟨"v1.0.0"⟩).isLE = true ∧
      range.accepts ⟨"snapshot"⟩ = true ∧ range.accepts ⟨"v1.0.0"⟩ = true ∧ range.accepts ⟨"1.0"⟩ = true) ∧
    (Version.semanticCompare ⟨"1.0.0"⟩ ⟨"v1.0"⟩ = .eq ∧ range.accepts ⟨"1.0.0"⟩ = range.accepts ⟨"v1.0"⟩) ∧
    Matcher.ofSelector request.selector = .ok range ∧
    verdicts = [.notMatched "2.0", .isMatch ⟨"g", "n", "v1.0.0"⟩, .rejected "1.0.0", .isMatch ⟨"g", "n", "1.0"⟩,
      .isMatch ⟨"g", "n", "snapshot"⟩, .notMatched "nightly", .notMatched "beta"] ∧
    ∃ newer block older, Divides (some ⟨⟨"nightly"⟩, false⟩) (some ⟨⟨"v1.0"⟩, true⟩) walked newer block older ∧
      verdicts.filter (!·.isARejection) =
        noneMatched newer ++ (allowed rules block).map (fun c => .isMatch c.component) ++ noneMatched older ++
          if (allowed rules block).isEmpty then [.noMatch] else [] := by
  intro range rules request candidates walked verdicts
  obtain ⟨hbetween, hlevel, hwalk⟩ := range_matches_contiguous (some ⟨⟨"nightly"⟩, false⟩) (some ⟨⟨"v1.0"⟩, true⟩)
  obtain ⟨hdivided, hselect⟩ := hwalk rules candidates []
  have hlow : (Version.compare ⟨"snapshot"⟩ ⟨"1.0"⟩).isLE = true := by decide +kernel
  have hhigh : (Version.compare ⟨"1.0"⟩ ⟨"v1.0.0"⟩).isLE = true := by decide +kernel
  have hends : range.accepts ⟨"snapshot"⟩ = true ∧ range.accepts ⟨"v1.0.0"⟩ = true := by decide +kernel
  have hsame : Version.semanticCompare ⟨"1.0.0"⟩ ⟨"v1.0"⟩ = .eq := by decide +kernel
  have hsel : Matcher.ofSelector request.selector = .ok range := by decide +kernel
  have hverdicts : verdicts = _ := hselect 0 request hsel
  refine ⟨⟨hlow, hhigh, hends.1, hends.2, hbetween _ _ _ hlow hhigh hends.1 hends.2⟩, ⟨hsame, hlevel _ _ hsame⟩, hsel, ?_, ?_⟩
  · unfold verdicts
    rw [standard_eq]
    decide +kernel
  · rw [hverdicts]
    exact hdivided

end Policy

end VersionChain
