import VersionChain.Proofs.Standing

/-!
# A version keeps its verdict

The verdict on a version is decided by its text and, where the selector needs it, by its metadata. What is known of the metadata
never changes, so no later listing changes the verdict: after any number of steps, a version that was not matched or was rejected in
any listing has no other verdict in this one or another one.
-/

namespace VersionChain

namespace Policy

variable {matcher : Matcher} {rules : Rules} {request : Request} {versions : List String} {answer : String → LookupOutcome}

/-! ## The verdicts of one selection -/

/-- The verdicts of a walk are those on its candidates, and perhaps that nothing was matched. -/
theorem mem_run_walk {outcomes : List LookupOutcome} {cs : List Candidate} {found : Bool} {x : Verdict}
    (hx : x ∈ ((walk matcher rules found cs).run outcomes).1) :
    x = .noMatch ∨ ∃ c ∈ cs, x = judgeAt matcher rules outcomes c := by
  rcases run_walk_cases matcher rules outcomes cs found with ⟨-, hrun⟩ | ⟨before, c, after, rfl, -, -, hrun⟩
  · rw [hrun, List.mem_append, List.mem_map] at hx
    rcases hx with ⟨c, hc, rfl⟩ | hx
    · exact Or.inr ⟨c, hc, rfl⟩
    · split at hx
      · nomatch hx
      · exact Or.inl (List.mem_singleton.mp hx)
  · rw [hrun, List.mem_append, List.mem_map, List.mem_singleton] at hx
    rcases hx with ⟨b, hb, rfl⟩ | rfl
    · exact Or.inr ⟨b, by simp [hb], rfl⟩
    · exact Or.inr ⟨c, by simp, rfl⟩

/-- A selector does not ask for a version that it does not accept, or whose metadata it needs and finds insufficient. -/
theorem wants_eq_false {o : LookupOutcome} {v : String}
    (h : matcher.accepts ⟨v⟩ = false ∨ matcher.needsMetadata = true ∧ matcher.Insufficient o) : wants matcher o v = false := by
  unfold wants
  rcases h with h | ⟨hneeds, hnone | hmissing | ⟨m, hm, haccepts⟩⟩
  · rw [h, Bool.false_and]
  · simp [hneeds, LookupOutcome.metadata?, hnone]
  · simp [hneeds, LookupOutcome.metadata?, hmissing, Lookup.metadata?]
  · simp [hneeds, LookupOutcome.metadata?, hm, Lookup.metadata?, haccepts]

/-- A verdict makes a remark of a version only where the remark applies. -/
theorem applies_of_judge {r : Remark} {o : LookupOutcome} {c : Candidate} {v : String}
    (h : r.of? (judge matcher rules o c) = some v) : c.component.version = v ∧ r.applies matcher rules o v = true := by
  have hjudges := judges_judge matcher rules o c
  generalize judge matcher rules o c = verdict at h hjudges
  cases hjudges with
  | notMatched unasked =>
    cases r with
    | rejected => cases h
    | unmatched =>
      obtain rfl := Option.some.inj h
      exact ⟨rfl, by rw [Remark.applies, wants_eq_false unasked]; rfl⟩
  | rejected asked excluded =>
    cases r with
    | unmatched => cases h
    | rejected =>
      obtain rfl := Option.some.inj h
      exact ⟨rfl, applies_rejected_iff.mpr ⟨asked, excluded⟩⟩
  | failed => cases r <;> cases h
  | isMatch => cases r <;> cases h

/-- The standard policy makes a remark of a version only where it applies. -/
theorem applies_of_mem_run {r : Remark} {v : String}
    (h : v ∈ ((standardSelect rules (Candidate.offer request versions) request).run (versions.map answer)).1.filterMap r.of?) :
    ∃ matcher, Matcher.ofSelector request.selector = .ok matcher ∧ r.applies matcher rules (answer v) v = true := by
  obtain ⟨x, hx, hv⟩ := List.mem_filterMap.mp h
  unfold standardSelect at hx
  cases hsel : Matcher.ofSelector request.selector with
  | error e =>
    rw [hsel] at hx
    obtain rfl := List.mem_singleton.mp hx
    cases r <;> nomatch hv
  | ok matcher =>
    rw [hsel] at hx
    refine ⟨matcher, rfl, ?_⟩
    rcases mem_run_walk hx with rfl | ⟨c, hc, rfl⟩
    · cases r <;> nomatch hv
    · rw [judgeAt_of_placed (placed_newestFirst request versions c hc)] at hv
      obtain ⟨rfl, happlies⟩ := applies_of_judge hv
      exact happlies

end Policy

namespace RequestState

variable {rules : Rules} {request : Request} {session : Session} {s t : RequestState}

/-! ## What a state says -/

/-- What a state says of versions is what the standard policy says of them, by any answers that agree with what the state knows. -/
structure SpeaksFor (rules : Rules) (request : Request) (s : RequestState) : Prop where
  about : s.request = request
  fit : s.ProbesFit
  remarks : ∀ answer, s.AgreesWith answer → ∀ r, ∀ v ∈ s.remarks r,
    ∃ matcher, Matcher.ofSelector request.selector = .ok matcher ∧ r.applies matcher rules (answer v) v = true
  matching : ∀ answer, s.AgreesWith answer → ∀ v ∈ s.matching,
    ∃ matcher, Matcher.ofSelector request.selector = .ok matcher ∧ Policy.selects matcher rules (answer v) v = true

theorem speaksFor_start (rules : Rules) (request : Request) (session : Session) : (start request session).SpeaksFor rules request where
  about := rfl
  fit := (accounted_start request session).fit
  remarks := fun _ _ r _ hv => by cases r <;> nomatch hv
  matching := fun _ _ _ hv => nomatch hv

/-- A change that leaves the probes and the verdicts alone. -/
theorem SpeaksFor.keep (h : s.SpeaksFor rules request) (hrequest : t.request = s.request) (hcandidates : t.candidates = s.candidates)
    (hremarks : ∀ r, t.remarks r = s.remarks r) (hmatching : t.matching = s.matching) : t.SpeaksFor rules request := by
  have hagrees : ∀ answer, t.AgreesWith answer → s.AgreesWith answer := fun answer hans v o ho =>
    hans v o (by rw [found?_congr hcandidates, ho])
  refine ⟨hrequest.trans h.about, ?_, fun answer hans r v hv => ?_, fun answer hans v hv => ?_⟩
  · intro p hp
    rw [hrequest]
    exact h.fit p (hcandidates ▸ hp)
  · exact h.remarks answer (hagrees answer hans) r v (hremarks r ▸ hv)
  · exact h.matching answer (hagrees answer hans) v (hmatching ▸ hv)

/-- The remarks on a listing come after those on earlier ones, and its matches replace theirs. -/
theorem SpeaksFor.select (h : s.SpeaksFor rules request) (turn : Nat) (versions : List String) :
    (s.select (.standard rules) turn versions).SpeaksFor rules request := by
  obtain ⟨asked, hadv⟩ := select_advances h.fit (.standard rules) turn versions
  refine ⟨hadv.request.trans h.about, hadv.fit, fun answer hans r v hv => ?_, fun answer hans v hv => ?_⟩
  · rw [remarks_select_run r h.fit (.standard rules) turn versions hans, Text.mem_insertAll, h.about] at hv
    rcases hv with hv | hv
    · exact h.remarks answer (hans.of_advances hadv) r v hv
    · exact Policy.applies_of_mem_run hv
  · have hmirrors := mirrors_select_again h.fit (.standard rules) turn versions hans
    rw [h.about] at hmirrors
    have hmatching : (s.select (.standard rules) turn versions).matching = Policy.matched rules request answer versions := by
      rw [hmirrors.matching]
      exact (Digest.matching_play answer versions _ _).trans (List.nil_append _)
    rw [hmatching] at hv
    obtain ⟨matcher, hmatcher, hselects, -⟩ := Policy.mem_matched.mp hv
    exact ⟨matcher, hmatcher, hselects⟩

/-- Every step keeps what a state says in agreement with the policy. -/
theorem SpeaksFor.step (h : s.SpeaksFor rules request) (turn : Nat) :
    (s.resolve (.standard rules) turn).2.SpeaksFor rules request := by
  have hlisted : s.afterListing.SpeaksFor rules request := h.keep rfl rfl (fun r => by cases r <;> rfl) rfl
  rcases resolve_cases (.standard rules) turn s with ⟨f, -, ht⟩ | ⟨versions, -, ht⟩ | ⟨-, ht⟩ <;> rw [ht]
  · exact hlisted.keep rfl rfl (fun r => by cases r <;> rfl) rfl
  · exact hlisted.select turn versions
  · exact hlisted

/-! ## Any number of steps -/

theorem speaksFor_atStep (rules : Rules) (turn : Nat) (request : Request) (session : Session) (n : Nat) :
    (atStep (.standard rules) turn request session n).2.SpeaksFor rules request :=
  atStep_induction (speaksFor_start rules request session) (fun _ turn h => h.step turn) turn n

/-- What is known of a version stays known in later steps, under any policy. -/
theorem agreesWith_of_later {policy : Policy} {turn : Nat} {answer : String → LookupOutcome} {n : Nat} (k : Nat)
    (hfit : ∀ n, (atStep policy turn request session n).2.ProbesFit)
    (h : (atStep policy turn request session (n + k)).2.AgreesWith answer) :
    (atStep policy turn request session n).2.AgreesWith answer := by
  induction k with
  | zero => exact h
  | succ k ih =>
    obtain ⟨asked, hadv⟩ := resolve_advances (hfit (n + k)) policy (atStep policy turn request session (n + k)).1
    have hlisted : (atStep policy turn request session (n + k)).2.afterListing.AgreesWith answer := h.of_advances hadv
    exact ih hlisted

/-- A step adds to the remarks of a state. -/
theorem remarks_isPrefix_resolve (r : Remark) (hfit : s.ProbesFit) (policy : Policy) (turn : Nat) :
    s.remarks r <+: (s.resolve policy turn).2.remarks r := by
  have hlisted : s.afterListing.remarks r = s.remarks r := by cases r <;> rfl
  rw [← hlisted]
  rcases resolve_cases policy turn s with ⟨f, -, ht⟩ | ⟨versions, -, ht⟩ | ⟨-, ht⟩
  · have hsame : (s.resolve policy turn).2.remarks r = s.afterListing.remarks r := by
      rw [ht]
      cases r <;> rfl
    exact hsame ▸ List.prefix_refl _
  · rw [ht, remarks_select_run r (s := s.afterListing) hfit policy turn versions (agreesWith_answer _)]
    exact Text.isPrefix_insertAll _ _
  · exact ht ▸ List.prefix_refl _

theorem remarks_isPrefix_atStep (r : Remark) (rules : Rules) (turn : Nat) (request : Request) (session : Session) (n k : Nat) :
    (atStep (.standard rules) turn request session n).2.remarks r <+:
      (atStep (.standard rules) turn request session (n + k)).2.remarks r := by
  induction k with
  | zero => exact List.prefix_refl _
  | succ k ih =>
    have hfit := (speaksFor_atStep rules turn request session (n + k)).fit
    exact ih.trans (remarks_isPrefix_resolve r hfit (.standard rules) _)

/-- By the same answers, nothing is remarked of a version that is matched. -/
theorem remarks_disjoint_matching {answer : String → LookupOutcome} (r : Remark) (hs : s.SpeaksFor rules request)
    (ht : t.SpeaksFor rules request) (hans : s.AgreesWith answer) (hans' : t.AgreesWith answer) :
    (s.remarks r).Disjoint t.matching := by
  intro v hv hv'
  obtain ⟨matcher, hsel, happlies⟩ := hs.remarks answer hans r v hv
  obtain ⟨_, hsel', hselects⟩ := ht.matching answer hans' v hv'
  obtain rfl := Except.ok.inj (hsel.symm.trans hsel')
  exact absurd happlies (Bool.eq_false_iff.mp (r.applies_of_selects hselects))

/-- By the same answers, a version that the selector does not ask for is not rejected. -/
theorem unmatched_disjoint_rejected {answer : String → LookupOutcome} (hs : s.SpeaksFor rules request)
    (ht : t.SpeaksFor rules request) (hans : s.AgreesWith answer) (hans' : t.AgreesWith answer) :
    s.unmatched.Disjoint t.rejected := by
  intro v hv hv'
  obtain ⟨matcher, hsel, hunmatched⟩ := hs.remarks answer hans .unmatched v hv
  obtain ⟨_, hsel', hrejected⟩ := ht.remarks answer hans' .rejected v hv'
  obtain rfl := Except.ok.inj (hsel.symm.trans hsel')
  rw [Remark.applies, Bool.not_eq_true'] at hunmatched
  simp [Remark.applies, hunmatched] at hrejected

/-- No version changes its verdict. However often a repository is asked, and whatever it answers, what was not matched, what was
rejected and what is matched are disjoint, at one step and at any two steps. What was not matched and what was rejected accumulates,
as the metadata known says of each version, and the matches are those of the latest listing. -/
theorem verdicts_keep (rules : Rules) (turn : Nat) (request : Request) (session : Session) :
    let state (n : Nat) := (atStep (.standard rules) turn request session n).2
    (∀ i j, (state i).unmatched.Disjoint (state j).rejected ∧ (state i).unmatched.Disjoint (state j).matching ∧
      (state i).rejected.Disjoint (state j).matching) ∧
    (∀ n k, (state n).unmatched <+: (state (n + k)).unmatched ∧ (state n).rejected <+: (state (n + k)).rejected) ∧
    ∀ n, ∃ asked, (state n).visit.session = session.after asked ∧
      (∀ r, ∀ v ∈ (state n).remarks r, ∃ matcher, Matcher.ofSelector request.selector = .ok matcher ∧
        r.applies matcher rules (metadataAfter asked v) v = true) ∧
      (state n).matching = Policy.matched rules request (metadataAfter asked) (latest asked) := by
  intro state
  have hspeaks : ∀ n, (state n).SpeaksFor rules request := speaksFor_atStep rules turn request session
  have hlater : ∀ n k, (state n).AgreesWith (state (n + k)).answer := fun n k =>
    agreesWith_of_later k (fun n => (hspeaks n).fit) (agreesWith_answer _)
  refine ⟨fun i j => ?_, fun n k => ?_, fun n => ?_⟩
  · have hi := hlater i j
    have hj := hlater j i
    rw [Nat.add_comm j i] at hj
    exact ⟨unmatched_disjoint_rejected (hspeaks i) (hspeaks j) hi hj,
      remarks_disjoint_matching .unmatched (hspeaks i) (hspeaks j) hi hj,
      remarks_disjoint_matching .rejected (hspeaks i) (hspeaks j) hi hj⟩
  · exact ⟨remarks_isPrefix_atStep .unmatched rules turn request session n k,
      remarks_isPrefix_atStep .rejected rules turn request session n k⟩
  · obtain ⟨asked, hstands⟩ := standing_atStep rules turn request session n
    have hanswer := hstands.accounted.answer_eq
    refine ⟨asked, hstands.accounted.visit.session, fun r v hv => ?_, ?_⟩
    · rw [← hanswer]
      exact (hspeaks n).remarks _ (agreesWith_answer _) r v hv
    · rw [← hanswer]
      exact hstands.matching

end RequestState

end VersionChain
