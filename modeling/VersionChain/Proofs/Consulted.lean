import VersionChain.Proofs.Budget
import VersionChain.Proofs.Walk

/-!
# What a request consults

Under any policy, a version that is matched while nothing is adopted has its metadata asked for; so where nothing is adopted,
every match was asked about in vain. What is asked about without being matched was inspected, which the standard policy does for
selectors of a status only. What the accesses of a request tell about listings and remote lookups follows from their traces.
-/

namespace VersionChain

namespace Digest

variable {answer : String → LookupOutcome}

/-! ## Matches without metadata -/

/-- Unless something was adopted, every match was asked about and has no metadata. -/
def MatchesInVain (answer : String → LookupOutcome) (d : Digest) : Prop :=
  d.selected = none → ∀ v ∈ d.matching, v ∈ d.asked ∧ (answer v).metadata? = none

theorem MatchesInVain.note {d : Digest} (h : d.MatchesInVain answer) (version : String) :
    (d.note version).MatchesInVain answer := by
  intro hsel v hv
  obtain ⟨hasked, hnone⟩ := h hsel v hv
  exact ⟨List.mem_append_left _ hasked, hnone⟩

theorem MatchesInVain.takeMatch {d : Digest} (h : d.MatchesInVain answer) (version : String) :
    (d.takeMatch answer version).MatchesInVain answer := by
  intro hnone v hv
  cases hsel : d.selected with
  | some m =>
    rw [takeMatch_of_selected (by rw [hsel]; rfl)] at hnone
    nomatch hsel.symm.trans hnone
  | none =>
    cases hm : (answer version).metadata? with
    | some m =>
      rw [takeMatch_of_metadata hsel hm] at hnone
      nomatch hnone
    | none =>
      rw [takeMatch_of_no_metadata hsel hm] at hv ⊢
      rcases List.mem_append.mp hv with hv | hv
      · obtain ⟨hasked, hv⟩ := h hsel v hv
        exact ⟨List.mem_append_left _ hasked, hv⟩
      · rw [List.mem_singleton] at hv
        subst hv
        exact ⟨by simp, hm⟩

theorem MatchesInVain.take {d : Digest} (h : d.MatchesInVain answer) (verdict : Verdict) :
    (d.take answer verdict).MatchesInVain answer := by
  cases verdict with
  | isMatch component => exact h.takeMatch component.version
  | notMatched | rejected | noMatch | failed => exact h

/-- Whatever a policy does, a selection that adopts nothing has asked about all its matches in vain. -/
theorem MatchesInVain.play (offered : List String) (sel : Selection) :
    ∀ {d : Digest}, d.MatchesInVain answer → (d.play answer offered sel).MatchesInVain answer := by
  induction sel with
  | done => intro d h; exact h
  | report verdict next ih => intro d h; exact ih (h.take verdict)
  | inspect position next ih =>
    intro d h
    unfold Digest.play
    cases offered[position]? with
    | none => exact ih _ h
    | some version => exact ih _ (h.note version)

/-! ## What is asked about -/

/-- A match is asked about unless something was adopted before. -/
theorem asked_takeMatch (answer : String → LookupOutcome) (d : Digest) (version : String) :
    (d.takeMatch answer version).asked = d.asked ++ if d.selected.isSome then [] else [version] := by
  cases hsel : d.selected with
  | some m =>
    rw [takeMatch_of_selected (by rw [hsel]; rfl)]
    exact (List.append_nil _).symm
  | none =>
    cases hm : (answer version).metadata? with
    | some m => rw [takeMatch_of_metadata hsel hm]; rfl
    | none => rw [takeMatch_of_no_metadata hsel hm]; rfl

/-- The match of a verdict is asked about unless something was adopted before. -/
theorem asked_take (answer : String → LookupOutcome) (d : Digest) (verdict : Verdict) :
    (d.take answer verdict).asked = d.asked ++ if d.selected.isSome then [] else verdict.matched?.toList := by
  cases verdict with
  | isMatch component => exact asked_takeMatch answer d component.version
  | notMatched | rejected | noMatch | failed => simp [take, Verdict.matched?]

theorem mem_asked_take {d : Digest} {verdict : Verdict} {v : String} (hv : v ∈ (d.take answer verdict).asked) :
    v ∈ d.asked ∨ verdict.matched? = some v := by
  rw [asked_take, List.mem_append] at hv
  refine hv.imp_right fun htried => ?_
  split at htried
  · nomatch htried
  · simpa using htried

/-- What a selection asks about was matched, or inspected at its place in the offer. -/
theorem asked_play (offered : List String) (sel : Selection) {v : String} :
    ∀ {d : Digest}, v ∈ (d.play answer offered sel).asked →
      v ∈ d.asked ∨ v ∈ (d.play answer offered sel).matching ∨
        ∃ position ∈ (sel.run (offered.map answer)).2, offered[position]? = some v := by
  induction sel with
  | done => intro d hv; exact Or.inl hv
  | report verdict next ih =>
    intro d hv
    rcases ih hv with hv' | hv' | hv'
    · rcases mem_asked_take hv' with hd | hmatched
      · exact Or.inl hd
      · refine Or.inr (Or.inl ?_)
        rw [Digest.play, matching_play, matching_take, hmatched]
        simp
    · exact Or.inr (Or.inl hv')
    · exact Or.inr (Or.inr hv')
  | inspect position next ih =>
    intro d hv
    have hmore : ∀ {o : LookupOutcome}, (∃ q ∈ ((next o).run (offered.map answer)).2, offered[q]? = some v) →
        ∃ q ∈ position :: ((next o).run (offered.map answer)).2, offered[q]? = some v := by
      rintro o ⟨q, hq, hget⟩
      exact ⟨q, List.mem_cons_of_mem _ hq, hget⟩
    unfold Digest.play at hv ⊢
    unfold Selection.run
    rw [List.getD_eq_getElem?_getD, List.getElem?_map]
    cases hp : offered[position]? with
    | none =>
      rw [hp] at hv
      exact (ih _ hv).imp_right (Or.imp_right hmore)
    | some version =>
      rw [hp] at hv
      rcases ih _ hv with hv' | hv'
      · rcases List.mem_append.mp hv' with hd | hnoted
        · exact Or.inl hd
        · rw [List.mem_singleton] at hnoted
          subst hnoted
          exact Or.inr (Or.inr ⟨position, List.mem_cons_self, hp⟩)
      · exact Or.inr (hv'.imp_right hmore)

end Digest

namespace Policy

variable {matcher : Matcher} {rules : Rules} {request : Request} {versions : List String} {answer : String → LookupOutcome}

/-- Where the text of a version is enough to judge it, nothing is inspected. -/
theorem run_walk_of_not_needsMetadata (h : matcher.needsMetadata = false) (rules : Rules) (outcomes : List LookupOutcome)
    (cs : List Candidate) : ∀ found : Bool, ((walk matcher rules found cs).run outcomes).2 = [] := by
  have hgo : ∀ (found : Bool) (verdict : Verdict) (rest : Bool → Selection), (∀ b, ((rest b).run outcomes).2 = []) →
      ((goOn matcher found verdict rest).run outcomes).2 = [] := by
    intro found verdict rest hrest
    cases verdict with
    | isMatch component =>
      unfold goOn Selection.run
      dsimp only
      split
      · rfl
      · exact hrest true
    | failed f => rfl
    | notMatched | rejected | noMatch => exact hrest found
  induction cs with
  | nil => intro found; cases found <;> rfl
  | cons c cs ih =>
    intro found
    unfold walk
    dsimp only
    rw [h]
    split
    · exact hgo found _ _ ih
    · exact hgo found _ _ ih

/-- For a selector of several versions, the matches are all that are admitted. -/
theorem matching_standardDigest_several (hsel : Matcher.ofSelector request.selector = .ok matcher)
    (hu : matcher.isUnique = false) (r : Option Lookup) :
    (standardDigest rules request versions answer r).matching.Perm (versions.filter fun v => admits matcher rules ⟨v⟩) := by
  have hperm := admittedNewestFirst_perm matcher rules request versions
  rw [standardDigest_several hsel hu]
  split
  · rename_i hnil
    rwa [hnil] at hperm
  · rwa [Digest.matching_foldl_takeMatch, List.nil_append]

/-- The matches of the standard policy are listed, and the selector can be read. -/
theorem matched_of_standardDigest {r : Option Lookup} {v : String}
    (hv : v ∈ (standardDigest rules request versions answer r).matching) :
    v ∈ versions ∧ ∃ matcher, Matcher.ofSelector request.selector = .ok matcher ∧ admits matcher rules ⟨v⟩ = true := by
  cases hsel : Matcher.ofSelector request.selector with
  | error e =>
    rw [standardDigest_error hsel] at hv
    nomatch hv
  | ok matcher =>
    cases hu : matcher.isUnique with
    | false =>
      rw [(matching_standardDigest_several hsel hu r).mem_iff, List.mem_filter] at hv
      exact ⟨hv.1, matcher, rfl, hv.2⟩
    | true =>
      obtain ⟨looked, -, hends⟩ := standardDigest_one hsel hu rules versions answer r
      generalize standardDigest rules request versions answer r = e at hv hends
      cases hends with
      | nothing => nomatch hv
      | failed fails => nomatch hv
      | @matched c mem admitted fits =>
        rw [Digest.matching_takeMatch, List.nil_append, List.mem_singleton] at hv
        subst hv
        exact ⟨List.mem_of_getElem? (placed_newestFirst request versions c mem), matcher, rfl, admitted⟩

/-- The standard policy asks about listed versions only, and of those it does not match only where the selector needs metadata. -/
theorem asked_of_standardDigest {r : Option Lookup} {v : String}
    (hv : v ∈ (standardDigest rules request versions answer r).asked) :
    v ∈ versions ∧ ∃ matcher, Matcher.ofSelector request.selector = .ok matcher ∧
      (v ∈ (standardDigest rules request versions answer r).matching ∨ matcher.needsMetadata = true) := by
  rcases Digest.asked_play versions _ hv with hv' | hv' | ⟨position, hp, hget⟩
  · nomatch hv'
  · obtain ⟨hlisted, matcher, hmatcher, -⟩ := matched_of_standardDigest hv'
    exact ⟨hlisted, matcher, hmatcher, Or.inl hv'⟩
  · refine ⟨List.mem_of_getElem? hget, ?_⟩
    unfold standardSelect at hp
    cases hsel : Matcher.ofSelector request.selector with
    | error e =>
      rw [hsel] at hp
      nomatch hp
    | ok matcher =>
      refine ⟨matcher, rfl, Or.inr ?_⟩
      rw [hsel] at hp
      cases hn : matcher.needsMetadata with
      | true => rfl
      | false =>
        rw [run_walk_of_not_needsMetadata hn] at hp
        nomatch hp

end Policy

/-! ## What the accesses tell -/

/-- After a nearby listing with authority nothing else is listed. -/
theorem ListingProbe.Traced.of_authoritative {request : Request} {asked : History} {p : ListingProbe}
    (h : Traced request asked p) {o : ListingOutcome} (ho : .listing .nearby request o ∈ asked) (known : o.hasResult = true)
    (final : o.authoritative = true) : asked = [.listing .nearby request o] := by
  cases h with
  | fresh => nomatch ho
  | @remoteLeft o' known' pending =>
    obtain ⟨-, -, rfl⟩ := Access.listing.inj (List.mem_singleton.mp ho)
    nomatch final.symm.trans pending
  | @closed o' known' final' =>
    obtain ⟨-, -, rfl⟩ := Access.listing.inj (List.mem_singleton.mp ho)
    rfl
  | @both o' o'' pending =>
    rcases List.mem_pair.mp ho with heq | heq
    · obtain ⟨-, -, rfl⟩ := Access.listing.inj heq
      nomatch final.symm.trans (pending known)
    · nomatch heq

/-- The remote tier is asked for metadata after the nearby tier, which knew nothing of the version or only that it is missing,
without authority. -/
theorem RequestState.Accounted.remote_lookup {request : Request} {session : Session} {asked : History} {s : RequestState}
    (h : s.Accounted request session asked) {a : Access} (ha : a ∈ asked) (hl : a.isListing = false) (hr : a.tier = .remote) :
    ∃ v o o', a = .lookup .remote (request.component v) (request.pinned v) o' ∧
      asked.filter (·.concerns v) = [.lookup .nearby (request.component v) (request.pinned v) o, a] ∧
      FetchesRemotely o ∧ (s.found? v).isSome = true := by
  cases a with
  | listing tier request o => cases hl
  | lookup tier component requested o' =>
    have hmem : Access.lookup tier component requested o' ∈ asked.filter (·.concerns component.version) :=
      List.mem_filter.mpr ⟨ha, by simp [Access.concerns]⟩
    have htr := h.lookups component.version
    refine ⟨component.version, ?_⟩
    generalize asked.filter (·.concerns component.version) = l at hmem htr
    generalize s.found? component.version = found at htr
    cases htr with
    | untried => cases hmem
    | nearby enough =>
      rw [List.mem_singleton] at hmem
      rw [hmem] at hr
      cases hr
    | @both o o'' silent =>
      rcases List.mem_pair.mp hmem with heq | heq
      · rw [heq] at hr
        cases hr
      · exact ⟨o, o'', heq, by rw [heq], (CandidateProbe.needsRemote_iff o).mp silent, rfl⟩

end VersionChain
