import VersionChain.Proofs.Consulted
import VersionChain.Proofs.Failures
import VersionChain.Proofs.Soundness

/-!
# Nothing found means nothing overlooked

A request that finds nothing has asked every repository for all that it lists, and has asked in vain about every match. A nearby
answer about a version ends the search for its metadata if it is final or a failure. The failure of one match is forgotten when a
later match of the same listing is missing, so a request may find nothing although a version failed nearby, without authority, and
its remote tier was never asked.
-/

namespace VersionChain

namespace RequestState

/-! ## What a state has asked in vain -/

/-- Unless the state has adopted a version, it has asked in vain about all its matches. For a selector of several versions the
matches are all listed versions that are admitted. -/
structure Thorough (rules : Rules) (s : RequestState) : Prop where
  coherent : s.Coherent
  inVain : s.selected = none → ∀ v ∈ s.matching, (s.found? v).isSome = true ∧ (s.answer v).metadata? = none
  several : ∀ matcher versions, Matcher.ofSelector s.request.selector = .ok matcher → matcher.isUnique = false →
    s.listing.state = some (.listed versions) → s.matching.Perm (versions.filter fun v => Policy.admits matcher rules ⟨v⟩)

theorem thorough_start (rules : Rules) (request : Request) (session : Session) :
    (start request session).Thorough rules where
  coherent := coherent_start request session
  inVain := nofun
  several := nofun

theorem Thorough.congr {rules : Rules} {s t : RequestState} (h : s.quiet = t.quiet) (hs : s.Thorough rules) :
    t.Thorough rules := by
  have hq : ∀ u : RequestState, u.Thorough rules ↔ u.quiet.Thorough rules :=
    fun u => ⟨fun h => ⟨⟨h.coherent.fit, h.coherent.selected⟩, h.inVain, h.several⟩,
      fun h => ⟨⟨h.coherent.fit, h.coherent.selected⟩, h.inVain, h.several⟩⟩
  rw [hq] at hs ⊢
  rwa [← h]

theorem thorough_select {rules : Rules} {s : RequestState} (hs : s.Coherent) (hn : s.FoundNothing) (turn : Nat)
    {versions : List String} (hl : s.afterListing.listing.state = some (.listed versions))
    (hcoherent : (s.afterListing.select (.standard rules) turn versions).Coherent) :
    (s.afterListing.select (.standard rules) turn versions).Thorough rules := by
  have hfit : s.afterListing.ProbesFit := hs.fit
  have hsel : s.afterListing.selected = none := hs.selected_eq_none hn
  obtain ⟨asked, hadv⟩ := select_advances hfit (.standard rules) turn versions
  have hmirrors := mirrors_select_standard hfit hsel rules turn versions (agreesWith_answer _)
  generalize s.afterListing.select (.standard rules) turn versions = t at hadv hmirrors hcoherent ⊢
  refine {
    coherent := hcoherent
    inVain := fun hnone v hv => ?_
    several := fun matcher versions' hmatcher hu hlisted => ?_ }
  · rw [hmirrors.selected] at hnone
    rw [hmirrors.matching] at hv
    have hplayed : (Policy.standardDigest rules s.request versions t.answer s.outcome).MatchesInVain t.answer :=
      Digest.MatchesInVain.play versions _ nofun
    obtain ⟨hasked, hmetadata⟩ := hplayed hnone v hv
    exact ⟨(hmirrors.found v).mpr (Or.inr hasked), hmetadata⟩
  · rw [hadv.listing, hl] at hlisted
    obtain rfl := Listing.listed.inj (Option.some.inj hlisted)
    rw [hadv.request] at hmatcher
    rw [hmirrors.matching]
    exact Policy.matching_standardDigest_several hmatcher hu _

theorem Thorough.step {rules : Rules} {s : RequestState} (h : s.Thorough rules) (hn : s.FoundNothing) (turn : Nat) :
    (s.resolve (.standard rules) turn).2.Thorough rules := by
  have hcoherent := h.coherent.step hn (.standard rules) turn
  rcases resolve_cases (.standard rules) turn s with ⟨f, hl, ht⟩ | ⟨versions, hl, ht⟩ | ⟨hl, ht⟩ <;>
    rw [ht] at hcoherent ⊢
  · have hlisting : (s.afterListing.failing f).listing.state = some (.failed f) := hl
    exact ⟨hcoherent, h.inVain, fun _ _ _ _ hlisted => nomatch hlisting.symm.trans hlisted⟩
  · exact thorough_select h.coherent hn turn hl hcoherent
  · exact ⟨hcoherent, h.inVain, fun _ _ _ _ hlisted => nomatch hl.symm.trans hlisted⟩

end RequestState

/-! ## What is left open -/

/-- A version was asked about in vain: in both tiers, or in the nearby one alone if its answer is final or a failure. -/
def AskedInVain (request : Request) (asked : History) (version : String) : Prop :=
  (∃ o, asked.filter (·.concerns version) = [.lookup .nearby (request.component version) (request.pinned version) o] ∧
    (o.result = some .missing ∧ o.authoritative = true ∨ ∃ f, o.result = some (.failed f))) ∨
  ∃ o o', asked.filter (·.concerns version) =
      [.lookup .nearby (request.component version) (request.pinned version) o,
        .lookup .remote (request.component version) (request.pinned version) o'] ∧
    o.metadata? = none ∧ o'.metadata? = none

theorem LacksMetadata.askedInVain {request : Request} {asked : History} {version : String}
    (h : LacksMetadata request asked version) : AskedInVain request asked version := by
  rcases h with ⟨o, hlookups, henough, hnone⟩ | ⟨o, o', hlookups, hfetches, hnone⟩
  · refine Or.inl ⟨o, hlookups, ?_⟩
    unfold FetchesRemotely at henough
    unfold LookupOutcome.metadata? at hnone
    rcases hr : o.result with _ | _ | _ | f <;> rw [hr] at henough hnone
    · exact absurd (Or.inl rfl) henough
    · nomatch hnone
    · exact Or.inl ⟨rfl, by simpa using henough⟩
    · exact Or.inr ⟨f, rfl⟩
  · refine Or.inr ⟨o, o', hlookups, ?_, hnone⟩
    rcases hfetches with hr | ⟨hr, -⟩ <;> rw [LookupOutcome.metadata?, hr] <;> rfl

/-- A request with the given steps in a repository has left nothing open there. -/
structure Exhausts (rules : Rules) (request : Request) (first last : RequestState) (asked : History) : Prop where
  /-- Both tiers were asked for versions, unless the nearby tier knew them for certain. -/
  listings :
    (∃ nearby, asked.filter Access.isListing = [.listing .nearby request nearby] ∧ nearby.hasResult = true ∧
      nearby.authoritative = true) ∨
    ∃ nearby remote, asked.filter Access.isListing = [.listing .nearby request nearby, .listing .remote request remote] ∧
      ¬(nearby.hasResult = true ∧ nearby.authoritative = true)
  settled : last.canGoFurther = false
  /-- Whatever was listed was offered to the policy, in one step or the other. -/
  offered : ∀ tier o versions, .listing tier request o ∈ asked → o.result = some (.listed versions) →
    first.listing.state = some (.listed versions) ∨ last.listing.state = some (.listed versions)
  /-- What was matched in either step was asked about in vain. -/
  inVain : ∀ s, s = first ∨ s = last → ∀ v ∈ s.matching, AskedInVain request asked v
  /-- For a selector of several versions, all that was admitted of a listing was matched. -/
  several : ∀ s, s = first ∨ s = last → ∀ matcher versions, Matcher.ofSelector request.selector = .ok matcher →
    matcher.isUnique = false → s.listing.state = some (.listed versions) →
      s.matching.Perm (versions.filter fun v => Policy.admits matcher rules ⟨v⟩)

namespace Course

variable {policy : Policy} {request : Request} {session : Session} {winner : Option Resolver.Winner} {first last : RequestState}
  {nearby : ListingOutcome} {before later : History}

/-- What ends with nothing had found nothing in the first step. -/
theorem foundNothing_first (h : Course policy request session winner first last nearby before later)
    (hnothing : last.FoundNothing) : first.FoundNothing := by
  rcases h.ended with ⟨-, hdef, -⟩ | ⟨-, hq, -⟩
  · exact (RequestState.outcome_eq_of_isDeferred hdef).1
  · have hout : first.outcome = last.outcome := congrArg (·.outcome) hq.symm
    rwa [RequestState.FoundNothing, hout]

/-- Without a winner, a repository that ends with nothing was asked for all that it lists. -/
theorem exhausts_listings (h : Course policy request session winner first last nearby before later) (hwin : winner = none)
    (hnothing : last.FoundNothing) :
    last.canGoFurther = false ∧
      ((∃ o, (before ++ later).filter Access.isListing = [.listing .nearby request o] ∧ o.hasResult = true ∧
          o.authoritative = true) ∨
        ∃ o remote, (before ++ later).filter Access.isListing = [.listing .nearby request o, .listing .remote request remote] ∧
          ¬(o.hasResult = true ∧ o.authoritative = true)) := by
  have hnothing' := h.foundNothing_first hnothing
  rcases h.ended with ⟨-, hdef, -, hsettled, remote, hlater⟩ | ⟨hstop, hq, rfl⟩
  · obtain ⟨hknown, hpending⟩ := h.further.mp (RequestState.outcome_eq_of_isDeferred hdef).2
    refine ⟨hsettled, Or.inr ⟨nearby, remote, ?_, fun hfinal => nomatch hpending.symm.trans hfinal.2⟩⟩
    rw [List.filter_append, h.listings_of_known hknown, hlater]
    rfl
  · -- a repository that has found nothing and could be asked further is deferred
    have hgo : first.canGoFurther = last.canGoFurther := congrArg (·.canGoFurther) hq.symm
    have hnot : first.canGoFurther = false := by
      cases hc : first.canGoFurther with
      | false => rfl
      | true => exact absurd ⟨hwin, hnothing'.isDeferred hc⟩ hstop
    rw [List.append_nil]
    refine ⟨by rw [← hgo, hnot], ?_⟩
    rcases h.listings with ⟨hlistings, hknown⟩ | ⟨⟨remote, hlistings⟩, hunknown⟩
    · refine Or.inl ⟨nearby, hlistings, hknown, ?_⟩
      cases ha : nearby.authoritative with
      | true => rfl
      | false => nomatch hnot.symm.trans (h.further.mpr ⟨hknown, ha⟩)
    · exact Or.inr ⟨nearby, remote, hlistings, fun hfinal => nomatch hunknown.symm.trans hfinal.1⟩

/-- Under the standard policy, the states after both steps are thorough. -/
theorem thorough {rules : Rules} (h : Course (.standard rules) request session winner first last nearby before later) :
    first.Thorough rules ∧ last.Thorough rules := by
  have hfirst : first.Thorough rules := by
    obtain ⟨turn, rfl⟩ := h.begun
    exact (RequestState.thorough_start rules request session).step (Or.inl rfl) turn
  rcases h.ended with ⟨-, hdef, ⟨turn, rfl⟩, -⟩ | ⟨-, hq, -⟩
  · have hfound := (RequestState.outcome_eq_of_isDeferred hdef).1
    exact ⟨hfirst, (hfirst.congr (RequestState.quiet_quiet first).symm).step hfound turn⟩
  · exact ⟨hfirst, hfirst.congr hq.symm⟩

/-- The matches of a state that has found nothing were asked about in vain by the end of both steps. -/
theorem askedInVain {rules : Rules} (h : Course policy request session winner first last nearby before later)
    {s : RequestState} (hs : s = first ∨ s = last) (hthorough : s.Thorough rules) (hnothing : s.FoundNothing) {v : String}
    (hv : v ∈ s.matching) : AskedInVain request (before ++ later) v := by
  obtain ⟨hfound, hnone⟩ := hthorough.inVain (hthorough.coherent.selected_eq_none hnothing) v hv
  obtain ⟨o, ho⟩ := Option.isSome_iff_exists.mp hfound
  have hlast : last.found? v = some o := by
    rcases hs with rfl | rfl
    · exact h.known v o ho
    · exact ho
  rw [RequestState.answer, ho] at hnone
  exact (h.accounted_last.lacksMetadata (by rw [hlast]; rfl) (by rwa [RequestState.answer, hlast])).askedInVain

/-- Whatever the accesses have listed was offered in one step or the other. -/
theorem offered (h : Course policy request session winner first last nearby before later) {tier : Tier} {o : ListingOutcome}
    {versions : List String} (ho : .listing tier request o ∈ before ++ later) (hlisted : o.result = some (.listed versions)) :
    first.listing.state = some (.listed versions) ∨ last.listing.state = some (.listed versions) := by
  have hfirst := h.accounted_first.listing
  have hlast := h.accounted_last.listing
  have hmem : .listing tier request o ∈ (before ++ later).filter Access.isListing := List.mem_filter.mpr ⟨ho, rfl⟩
  rcases h.ended with ⟨-, hdef, -, -, remote, hlater⟩ | ⟨-, -, rfl⟩
  · obtain ⟨hknown, -⟩ := h.further.mp (RequestState.outcome_eq_of_isDeferred hdef).2
    have hbefore := h.listings_of_known hknown
    rw [List.filter_append, hbefore, hlater] at hmem hlast
    rw [hbefore] at hfirst
    rcases List.mem_pair.mp hmem with heq | heq
    · obtain ⟨-, -, rfl⟩ := Access.listing.inj heq
      exact Or.inl (hfirst.state_eq.trans hlisted)
    · obtain ⟨-, -, rfl⟩ := Access.listing.inj heq
      exact Or.inr (by rw [hlast.state_both, hlisted]; rfl)
  · rw [List.append_nil] at hmem
    rcases h.listings with ⟨hlistings, -⟩ | ⟨⟨remote, hlistings⟩, hunknown⟩ <;> rw [hlistings] at hmem hfirst
    · obtain ⟨-, -, rfl⟩ := Access.listing.inj (List.mem_singleton.mp hmem)
      exact Or.inl (hfirst.state_eq.trans hlisted)
    · rcases List.mem_pair.mp hmem with heq | heq
      · obtain ⟨-, -, rfl⟩ := Access.listing.inj heq
        simp [Outcome.hasResult, hlisted] at hunknown
      · obtain ⟨-, -, rfl⟩ := Access.listing.inj heq
        exact Or.inl (by rw [hfirst.state_both, hlisted]; rfl)

end Course

namespace Resolver

variable {rules : Rules} {schedule : Schedule} {turn : Nat} {sessions : List Session} {request : Request}

/-- With an error there was no winner. -/
theorem winner_of_error {policy : Policy} {e : Error} (he : (resolve policy schedule turn sessions request).result = .error e) :
    (firstVerdicts policy schedule turn sessions request).winner = none := by
  cases hw : (firstVerdicts policy schedule turn sessions request).winner with
  | none => rfl
  | some w => nomatch (resolve_of_winner policy schedule turn sessions request hw).2.symm.trans he

/-- A request that finds nothing leaves every repository with nothing. -/
theorem foundNothing_of_notFound {policy : Policy} {text : String} {attempted unmatched rejected : List String}
    (he : (resolve policy schedule turn sessions request).result = .error (.notFound text attempted unmatched rejected))
    {t : RequestState} (ht : t ∈ (resolve policy schedule turn sessions request).states) : t.FoundNothing := by
  refine RequestState.foundNothing_of_none (adopted?_of_error he ht) ?_
  cases hf : t.failure? with
  | none => rfl
  | some f =>
    obtain ⟨causes, hcauses, -⟩ := (mem_causes_iff he f).mpr ⟨t, ht, RequestState.failure?_eq_some_iff.mp hf⟩
    nomatch hcauses

/-- A request that finds nothing leaves nothing open in any repository. -/
theorem notFound_exhausts {text : String} {attempted unmatched rejected : List String}
    (he : (resolve (.standard rules) schedule turn sessions request).result =
      .error (.notFound text attempted unmatched rejected))
    {i : Nat} {session : Session} (hi : sessions[i]? = some session) :
    ∃ first last asked,
      (firstPass (.standard rules) schedule turn sessions request).states[i]? = some first ∧
      (resolve (.standard rules) schedule turn sessions request).states[i]? = some last ∧
      (resolve (.standard rules) schedule turn sessions request).sessions[i]? = some (session.after asked) ∧
      Exhausts rules request first last asked := by
  obtain ⟨first, last, nearby, before, later, hfirst, hlast, hcourse⟩ :=
    course_resolve (.standard rules) schedule turn sessions request hi
  have hnothing := foundNothing_of_notFound he (List.mem_of_getElem? hlast)
  obtain ⟨hsettled, hlistings⟩ := hcourse.exhausts_listings (winner_of_error he) hnothing
  obtain ⟨hthorough, hthorough'⟩ := hcourse.thorough
  refine ⟨first, last, before ++ later, hfirst, hlast, Run.getElem?_sessions hlast hcourse.accounted_last, {
    listings := hlistings
    settled := hsettled
    offered := fun tier o versions => hcourse.offered
    inVain := ?_
    several := ?_ }⟩
  · rintro s (rfl | rfl) v hv
    · exact hcourse.askedInVain (Or.inl rfl) hthorough (hcourse.foundNothing_first hnothing) hv
    · exact hcourse.askedInVain (Or.inr rfl) hthorough' hnothing hv
  · rintro s (rfl | rfl) matcher versions hmatcher hu hlisted
    · exact hthorough.several matcher versions (by rwa [hcourse.accounted_first.about]) hu hlisted
    · exact hthorough'.several matcher versions (by rwa [hcourse.accounted_last.about]) hu hlisted

/-- A repository that knows of no versions nearby, but has a broken descriptor of the newer one there. Remotely it lists two
versions and has the newer one, and the older one is missing. -/
def brokenNearby : Session where
  repository := .ofCatalogues "r" (({} : Catalogue).putEntry ⟨"g", "n", "2.0"⟩ (.failure "broken descriptor"))
    (((({} : Catalogue).putListing ⟨"g", "n"⟩ (.versions ["1.0", "2.0"])).putFacts (.plain ⟨"g", "n", "2.0"⟩)).putEntry
      ⟨"g", "n", "1.0"⟩ .missing)

/-- The only access that concerns the newer version. -/
def brokenNearbyLookup : Access :=
  .lookup .nearby ⟨"g", "n", "2.0"⟩ ⟨"g", "n", "2.0"⟩
    { result := some (.failed (.access "r" .nearby "g:n:2.0" "broken descriptor"))
      attempted := ["memory://r/local/g:n:2.0"] }

/-- Nothing is found, and the newer version is a match whose remote metadata was never asked for. -/
theorem resolve_brokenNearby :
    ∃ last asked,
      (resolve (.standard {}) .inOrder 0 [brokenNearby] ⟨"g", "n", "[1.0,2.0]"⟩).states[0]? = some last ∧
      (resolve (.standard {}) .inOrder 0 [brokenNearby] ⟨"g", "n", "[1.0,2.0]"⟩).sessions[0]? =
        some (brokenNearby.after asked) ∧
      (resolve (.standard {}) .inOrder 0 [brokenNearby] ⟨"g", "n", "[1.0,2.0]"⟩).result =
        .error (.notFound "g:n:[1.0,2.0]"
          ["memory://r/remote/g:n", "memory://r/local/g:n:2.0", "memory://r/remote/g:n:1.0"] [] []) ∧
      "2.0" ∈ last.matching ∧ asked.filter (·.concerns "2.0") = [brokenNearbyLookup] := by
  have hget : [brokenNearby][0]? = some brokenNearby := rfl
  obtain ⟨last, asked, hlast, hacc⟩ :=
    accounted_resolve (.standard {}) .inOrder 0 [brokenNearby] ⟨"g", "n", "[1.0,2.0]"⟩ hget
  have hsession := Run.getElem?_sessions hlast hacc
  have hmatched : ((resolve (.standard {}) .inOrder 0 [brokenNearby] ⟨"g", "n", "[1.0,2.0]"⟩).states[0]?.any
      fun s => s.matching.contains "2.0") = true := by
    rw [Policy.standard_eq]
    decide +kernel
  have hlookups : ((resolve (.standard {}) .inOrder 0 [brokenNearby] ⟨"g", "n", "[1.0,2.0]"⟩).sessions[0]?.any
      fun s => s.history.filter (·.concerns "2.0") == [brokenNearbyLookup]) = true := by
    rw [Policy.standard_eq]
    decide +kernel
  have hresult : (resolve (.standard {}) .inOrder 0 [brokenNearby] ⟨"g", "n", "[1.0,2.0]"⟩).error? = some
      (.notFound "g:n:[1.0,2.0]"
        ["memory://r/remote/g:n", "memory://r/local/g:n:2.0", "memory://r/remote/g:n:1.0"] [] []) := by
    rw [Policy.standard_eq]
    decide +kernel
  rw [hlast] at hmatched
  rw [hsession] at hlookups
  exact ⟨last, asked, hlast, hsession, Run.result_of_error? hresult, by simpa using hmatched,
    by simpa [Session.after, brokenNearby] using hlookups⟩

/-- Where nothing is found, the remote tier may hold a match that it was never asked about. -/
theorem not_all_matches_completed :
    ¬∀ (rules : Rules) (schedule : Schedule) (turn : Nat) (sessions : List Session) (request : Request) (text : String)
      (attempted unmatched rejected : List String) (i : Nat) (session : Session) (last : RequestState) (asked : History)
      (v : String),
      (resolve (.standard rules) schedule turn sessions request).result =
        .error (.notFound text attempted unmatched rejected) →
      sessions[i]? = some session →
      (resolve (.standard rules) schedule turn sessions request).states[i]? = some last →
      (resolve (.standard rules) schedule turn sessions request).sessions[i]? = some (session.after asked) →
      v ∈ last.matching →
      ∃ o, .lookup .nearby (request.component v) (request.pinned v) o ∈ asked ∧
        (o.authoritative = true ∨ ∃ o', .lookup .remote (request.component v) (request.pinned v) o' ∈ asked) := by
  intro h
  obtain ⟨last, asked, hlast, hsession, hresult, hmatched, hlookups⟩ := resolve_brokenNearby
  obtain ⟨o, ho, hcase⟩ := h {} .inOrder 0 [brokenNearby] ⟨"g", "n", "[1.0,2.0]"⟩ _ _ _ _ 0 brokenNearby last asked "2.0"
    hresult rfl hlast hsession hmatched
  have honly : ∀ a ∈ asked, a.concerns "2.0" = true → a = brokenNearbyLookup := fun a ha hc => by
    have hmem : a ∈ asked.filter (·.concerns "2.0") := List.mem_filter.mpr ⟨ha, hc⟩
    rwa [hlookups, List.mem_singleton] at hmem
  rcases hcase with hfinal | ⟨o', ho'⟩
  · obtain ⟨-, -, -, rfl⟩ := Access.lookup.inj (honly _ ho rfl)
    nomatch hfinal
  · nomatch honly _ ho' rfl

theorem notFound_exhausts_brokenNearby :
    ∃ text attempted unmatched rejected first last asked,
      (resolve (.standard {}) .inOrder 0 [brokenNearby] ⟨"g", "n", "[1.0,2.0]"⟩).result =
        .error (.notFound text attempted unmatched rejected) ∧
      [brokenNearby][0]? = some brokenNearby ∧
      (firstPass (.standard {}) .inOrder 0 [brokenNearby] ⟨"g", "n", "[1.0,2.0]"⟩).states[0]? = some first ∧
      (resolve (.standard {}) .inOrder 0 [brokenNearby] ⟨"g", "n", "[1.0,2.0]"⟩).states[0]? = some last ∧
      (resolve (.standard {}) .inOrder 0 [brokenNearby] ⟨"g", "n", "[1.0,2.0]"⟩).sessions[0]? =
        some (brokenNearby.after asked) ∧
      "2.0" ∈ last.matching ∧ Exhausts {} ⟨"g", "n", "[1.0,2.0]"⟩ first last asked := by
  have hget : [brokenNearby][0]? = some brokenNearby := rfl
  obtain ⟨last, asked, hlast, hsession, hresult, hmatched, -⟩ := resolve_brokenNearby
  obtain ⟨first, last', asked', hfirst, hlast', hsession', hexhausts⟩ := notFound_exhausts hresult hget
  obtain rfl := Option.some.inj (hlast'.symm.trans hlast)
  exact ⟨_, _, _, _, first, last', asked', hresult, hget, hfirst, hlast, hsession', hmatched, hexhausts⟩

end Resolver

end VersionChain
