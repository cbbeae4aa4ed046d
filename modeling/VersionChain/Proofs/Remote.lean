import VersionChain.Proofs.Consulted

/-!
# What the remote tier is asked for

While another repository settles a request, the remote listing of a deferred repository is not asked for, and after a nearby
listing with authority it never is. Metadata is searched for in both tiers as soon as it is needed: the authority of a listing says
nothing about it. So a deferred repository, or one whose listing is final, may still be asked remotely for the metadata of a version
it lists, where the version is a match or the selector is for a status, and the nearby tier does not settle the matter.
-/

namespace VersionChain

/-- The access asks the remote tier for the metadata of a listed version that is a match, or that only its metadata can tell to be
one. The nearby tier was asked before, and knew nothing of the version or only that it is missing, without authority. -/
def CompletesMetadata (request : Request) (asked : History) (matcher : Matcher) (versions matching : List String) (a : Access) :
    Prop :=
  ∃ v ∈ versions, (v ∈ matching ∨ matcher.needsMetadata = true) ∧ ∃ o o',
    a = .lookup .remote (request.component v) (request.pinned v) o' ∧
      asked.filter (·.concerns v) = [.lookup .nearby (request.component v) (request.pinned v) o, a] ∧ FetchesRemotely o

theorem Matcher.eq_latest_of_needsMetadata {matcher : Matcher} (h : matcher.needsMetadata = true) :
    ∃ status, matcher = .latest (some status) := by
  rcases matcher with (_ | status) | _ | _ | _
  · nomatch h
  · exact ⟨status, rfl⟩
  · nomatch h
  · nomatch h
  · nomatch h

namespace RequestState

/-- After one step of the standard policy, what is known of metadata is about listed versions, and of those that are not matches
only where the selector needs metadata. -/
theorem listed_of_found {rules : Rules} {request : Request} {session : Session} {turn : Nat} {v : String}
    (hv : (((start request session).resolve (.standard rules) turn).2.found? v).isSome = true) :
    ∃ matcher versions,
      ((start request session).resolve (.standard rules) turn).2.listing.state = some (.listed versions) ∧
      Matcher.ofSelector request.selector = .ok matcher ∧ v ∈ versions ∧
      (v ∈ ((start request session).resolve (.standard rules) turn).2.matching ∨ matcher.needsMetadata = true) := by
  rcases resolve_cases (.standard rules) turn (start request session) with ⟨f, -, ht⟩ | ⟨versions, hl, ht⟩ | ⟨-, ht⟩ <;>
    rw [ht] at hv ⊢
  · nomatch hv
  · have hfit : (start request session).afterListing.ProbesFit := (accounted_start request session).fit
    obtain ⟨_, hadv⟩ := select_advances hfit (.standard rules) turn versions
    have hmirrors := mirrors_select_standard hfit rfl rules turn versions (agreesWith_answer _)
    generalize (start request session).afterListing.select (.standard rules) turn versions = t at hv hadv hmirrors ⊢
    rcases (hmirrors.found v).mp hv with hbefore | hasked
    · nomatch hbefore
    · obtain ⟨hlisted, matcher, hmatcher, hwhy⟩ := Policy.asked_of_standardDigest hasked
      exact ⟨matcher, versions, by rw [hadv.listing, hl], hmatcher, hlisted, by rwa [hmirrors.matching]⟩
  · nomatch hv

end RequestState

/-- Where the nearby tier alone was asked for a listing, only metadata was asked for remotely. -/
theorem Access.isListing_eq_false_of_remote {request : Request} {nearby : ListingOutcome} {asked : History}
    (h : asked.filter isListing = [.listing .nearby request nearby]) {a : Access} (ha : a ∈ asked) (hr : a.tier = .remote) :
    a.isListing = false := by
  cases hl : a.isListing with
  | false => rfl
  | true =>
    have hmem : a ∈ asked.filter isListing := List.mem_filter.mpr ⟨ha, hl⟩
    rw [h, List.mem_singleton] at hmem
    rw [hmem] at hr
    nomatch hr

/-- Where the nearby tier alone has listed versions, the first step asks the remote tier at most to complete their metadata. -/
theorem Course.completesMetadata {rules : Rules} {request : Request} {session : Session} {winner : Option Resolver.Winner}
    {first last : RequestState} {nearby : ListingOutcome} {before later : History}
    (h : Course (.standard rules) request session winner first last nearby before later)
    {o : ListingOutcome} (hlistings : before.filter Access.isListing = [.listing .nearby request o]) {versions : List String}
    (hlisted : o.result = some (.listed versions)) {a : Access} (ha : a ∈ before) (hr : a.tier = .remote) :
    ∃ matcher, Matcher.ofSelector request.selector = .ok matcher ∧
      CompletesMetadata request before matcher versions first.matching a := by
  obtain ⟨v, o, o', heq, hlookups, hfetches, hfound⟩ :=
    h.accounted_first.remote_lookup ha (Access.isListing_eq_false_of_remote hlistings ha hr) hr
  have htr := h.accounted_first.listing
  rw [hlistings] at htr
  have hstate := htr.state_eq
  obtain ⟨turn, rfl⟩ := h.begun
  obtain ⟨matcher, versions', hstate', hmatcher, hv, hwhy⟩ := RequestState.listed_of_found hfound
  obtain rfl := Listing.listed.inj (Option.some.inj (hstate'.symm.trans (hstate.trans hlisted)))
  exact ⟨matcher, hmatcher, v, hv, hwhy, o, o', heq, hlookups, hfetches⟩

namespace Resolver

variable {rules : Rules} {schedule : Schedule} {turn : Nat} {sessions : List Session} {request : Request}

/-- With a winner in the first pass, a repository that was deferred is not asked for its remote listing, and its remote tier is
asked at most to complete the metadata of versions listed nearby. -/
theorem deferred_completes_metadata_only {w : Winner}
    (hwin : (firstVerdicts (.standard rules) schedule turn sessions request).winner = some w) {i : Nat} {session : Session}
    (hi : sessions[i]? = some session) {first : RequestState}
    (hfirst : (firstPass (.standard rules) schedule turn sessions request).states[i]? = some first)
    (hdef : first.isDeferred = true) :
    ∃ asked nearby versions,
      (resolve (.standard rules) schedule turn sessions request).sessions[i]? = some (session.after asked) ∧
      asked.filter Access.isListing = [.listing .nearby request nearby] ∧
      nearby.result = some (.listed versions) ∧ nearby.authoritative = false ∧
      ∀ a ∈ asked, a.tier = .remote → ∃ matcher, Matcher.ofSelector request.selector = .ok matcher ∧
        CompletesMetadata request asked matcher versions first.matching a := by
  obtain ⟨first', last, nearby, before, later, hfirst', hlast, hcourse⟩ :=
    course_resolve (.standard rules) schedule turn sessions request hi
  obtain rfl := Option.some.inj (hfirst.symm.trans hfirst')
  obtain ⟨hnothing, hgo⟩ := RequestState.outcome_eq_of_isDeferred hdef
  obtain ⟨hknown, hpending⟩ := hcourse.further.mp hgo
  rcases hcourse.ended with ⟨hnone, -⟩ | ⟨-, -, rfl⟩
  · nomatch hwin.symm.trans hnone
  have hfilter := hcourse.listings_of_known hknown
  obtain ⟨versions, hlisted⟩ := hcourse.listed_of_foundNothing hknown hnothing
  refine ⟨before, nearby, versions, ?_, hfilter, hlisted, hpending, fun a ha hr => ?_⟩
  · have hsession := Run.getElem?_sessions hlast hcourse.accounted_last
    rwa [List.append_nil] at hsession
  · exact hcourse.completesMetadata hfilter hlisted ha hr

/-- A repository that lists a version nearby, without authority, and has its metadata nowhere. -/
def unfinished : Session where
  repository := .ofCatalogues "deferred" (({} : Catalogue).putListing ⟨"g", "n"⟩ (.versions ["1.0"])) {}

/-- A repository that has a version nearby. -/
def stocked : Session where
  repository := .ofCatalogues "winner" (({ authoritative := true } : Catalogue).putModules ⟨"g", "n"⟩ ["1.0"]) {}

/-- The second repository wins the first pass, and the first one, which was deferred, was asked remotely all the same. -/
theorem resolve_unfinished :
    ∃ w first asked,
      (firstVerdicts (.standard {}) .inOrder 0 [unfinished, stocked] ⟨"g", "n", "1.0"⟩).winner = some w ∧ w.place = 1 ∧
      (firstPass (.standard {}) .inOrder 0 [unfinished, stocked] ⟨"g", "n", "1.0"⟩).states[0]? = some first ∧
      first.isDeferred = true ∧
      (resolve (.standard {}) .inOrder 0 [unfinished, stocked] ⟨"g", "n", "1.0"⟩).sessions[0]? =
        some (unfinished.after asked) ∧
      ∃ a ∈ asked, a.tier = .remote := by
  have hget : [unfinished, stocked][0]? = some unfinished := rfl
  obtain ⟨t, asked, ht, hacc⟩ :=
    accounted_resolve (.standard {}) .inOrder 0 [unfinished, stocked] ⟨"g", "n", "1.0"⟩ hget
  have hsession := Run.getElem?_sessions ht hacc
  have hwin : (firstVerdicts (.standard {}) .inOrder 0 [unfinished, stocked] ⟨"g", "n", "1.0"⟩).winner.any
      (·.place == 1) = true := by
    rw [Policy.standard_eq]
    decide +kernel
  have hdef : (firstPass (.standard {}) .inOrder 0 [unfinished, stocked] ⟨"g", "n", "1.0"⟩).states[0]?.any
      RequestState.isDeferred = true := by
    rw [Policy.standard_eq]
    decide +kernel
  have hremote : ((resolve (.standard {}) .inOrder 0 [unfinished, stocked] ⟨"g", "n", "1.0"⟩).sessions[0]?.any
      fun s => s.history.any (·.tier == .remote)) = true := by
    rw [Policy.standard_eq]
    decide +kernel
  obtain ⟨w, hw, hplace⟩ := (Option.any_eq_true _ _).mp hwin
  obtain ⟨first, hfirst, hd⟩ := (Option.any_eq_true _ _).mp hdef
  rw [hsession] at hremote
  exact ⟨w, first, asked, hw, beq_iff_eq.mp hplace, hfirst, hd, hsession, by simpa [Session.after, unfinished] using hremote⟩

/-- A winner in the first pass does not keep the remote tiers of the deferred repositories from being asked. -/
theorem not_all_deferred_spared :
    ¬∀ (rules : Rules) (schedule : Schedule) (turn : Nat) (sessions : List Session) (request : Request) (w : Winner) (i : Nat)
      (session : Session) (first : RequestState) (asked : History),
      (firstVerdicts (.standard rules) schedule turn sessions request).winner = some w →
      sessions[i]? = some session → i ≠ w.place →
      (firstPass (.standard rules) schedule turn sessions request).states[i]? = some first →
      first.isDeferred = true →
      (resolve (.standard rules) schedule turn sessions request).sessions[i]? = some (session.after asked) →
      ∀ a ∈ asked, a.tier ≠ .remote := by
  intro h
  obtain ⟨w, first, asked, hw, hplace, hfirst, hdef, hsession, a, ha, hr⟩ := resolve_unfinished
  exact h {} .inOrder 0 _ _ w 0 unfinished first asked hw rfl (by rw [hplace]; decide) hfirst hdef hsession a ha hr

theorem deferred_completes_metadata_only_unfinished :
    ∃ w first asked nearby versions a,
      (firstVerdicts (.standard {}) .inOrder 0 [unfinished, stocked] ⟨"g", "n", "1.0"⟩).winner = some w ∧
      [unfinished, stocked][0]? = some unfinished ∧
      (firstPass (.standard {}) .inOrder 0 [unfinished, stocked] ⟨"g", "n", "1.0"⟩).states[0]? = some first ∧
      first.isDeferred = true ∧
      (resolve (.standard {}) .inOrder 0 [unfinished, stocked] ⟨"g", "n", "1.0"⟩).sessions[0]? =
        some (unfinished.after asked) ∧
      asked.filter Access.isListing = [.listing .nearby ⟨"g", "n", "1.0"⟩ nearby] ∧
      nearby.result = some (.listed versions) ∧ nearby.authoritative = false ∧
      a ∈ asked ∧ a.tier = .remote ∧ ∃ matcher, Matcher.ofSelector "1.0" = .ok matcher ∧
        CompletesMetadata ⟨"g", "n", "1.0"⟩ asked matcher versions first.matching a := by
  obtain ⟨w, first, asked, hw, -, hfirst, hdef, hsession, a, ha, hr⟩ := resolve_unfinished
  obtain ⟨asked', nearby, versions, hsession', hlistings, hlisted, hpending, hall⟩ :=
    deferred_completes_metadata_only hw rfl hfirst hdef
  obtain rfl := Session.after_inj (Option.some.inj (hsession'.symm.trans hsession))
  exact ⟨w, first, asked', nearby, versions, a, hw, rfl, hfirst, hdef, hsession, hlistings, hlisted, hpending, ha, hr,
    hall a ha hr⟩

/-- After a nearby listing with authority the remote listing is not asked for. If no version listed is a match, the remote tier is
asked at most to complete the metadata of listed versions, and only for a selector of a status. -/
theorem authoritative_listing_closes_remote {i : Nat} {session : Session} (hi : sessions[i]? = some session) {asked : History}
    (hasked : (resolve (.standard rules) schedule turn sessions request).sessions[i]? = some (session.after asked))
    {nearby : ListingOutcome} (hnearby : .listing .nearby request nearby ∈ asked) {versions : List String}
    (hlisted : nearby.result = some (.listed versions)) (hfinal : nearby.authoritative = true) :
    asked.filter Access.isListing = [.listing .nearby request nearby] ∧
    ∃ last, (resolve (.standard rules) schedule turn sessions request).states[i]? = some last ∧
      (last.matching = [] → ∀ a ∈ asked, a.tier = .remote →
        ∃ status, Matcher.ofSelector request.selector = .ok (.latest (some status)) ∧
          CompletesMetadata request asked (.latest (some status)) versions [] a) := by
  obtain ⟨first, last, nearby', before, later, -, hlast, hcourse⟩ :=
    course_resolve (.standard rules) schedule turn sessions request hi
  have hsession := Run.getElem?_sessions hlast hcourse.accounted_last
  obtain rfl : before ++ later = asked := Session.after_inj (Option.some.inj (hsession.symm.trans hasked))
  have hknown : nearby.hasResult = true := by simp [Outcome.hasResult, hlisted]
  have hfilter : (before ++ later).filter Access.isListing = [.listing .nearby request nearby] :=
    hcourse.accounted_last.listing.of_authoritative (List.mem_filter.mpr ⟨hnearby, rfl⟩) hknown hfinal
  refine ⟨hfilter, last, hlast, fun hnone a ha hr => ?_⟩
  rcases hcourse.ended with ⟨-, hdef, -⟩ | ⟨-, hq, rfl⟩
  · -- a deferred repository has listed without authority
    obtain ⟨hknown', hpending⟩ := hcourse.further.mp (RequestState.outcome_eq_of_isDeferred hdef).2
    rw [List.filter_append, hcourse.listings_of_known hknown'] at hfilter
    obtain ⟨-, -, rfl⟩ := Access.listing.inj (List.cons.inj hfilter).1
    cases hfinal.symm.trans hpending
  · rw [List.append_nil] at hfilter ha ⊢
    have hmatching : first.matching = [] := (congrArg (·.matching) hq).symm.trans hnone
    obtain ⟨matcher, hmatcher, v, hv, hwhy, hlookups⟩ := hcourse.completesMetadata hfilter hlisted ha hr
    have hneeds : matcher.needsMetadata = true := hwhy.resolve_left (by simp [hmatching])
    obtain ⟨status, rfl⟩ := Matcher.eq_latest_of_needsMetadata hneeds
    exact ⟨status, hmatcher, v, hv, Or.inr rfl, hlookups⟩

/-- A repository that lists a version for certain, and has its metadata nowhere. -/
def undescribed : Session where
  repository :=
    .ofCatalogues "r" (({ authoritative := true } : Catalogue).putListing ⟨"g", "n"⟩ (.versions ["1.0"])) {}

/-- The listing of that repository. -/
def finalListing : ListingOutcome where
  result := some (.listed ["1.0"])
  authoritative := true
  attempted := ["memory://r/local/g:n"]

/-- Nothing is matched there, and the remote tier was asked all the same. -/
theorem resolve_undescribed :
    ∃ last asked,
      (resolve (.standard {}) .inOrder 0 [undescribed] ⟨"g", "n", "latest.release"⟩).states[0]? = some last ∧
      (resolve (.standard {}) .inOrder 0 [undescribed] ⟨"g", "n", "latest.release"⟩).sessions[0]? =
        some (undescribed.after asked) ∧
      .listing .nearby ⟨"g", "n", "latest.release"⟩ finalListing ∈ asked ∧ last.matching = [] ∧
      ∃ a ∈ asked, a.tier = .remote := by
  have hget : [undescribed][0]? = some undescribed := rfl
  obtain ⟨last, asked, hlast, hacc⟩ :=
    accounted_resolve (.standard {}) .inOrder 0 [undescribed] ⟨"g", "n", "latest.release"⟩ hget
  have hsession := Run.getElem?_sessions hlast hacc
  have hshown : ((resolve (.standard {}) .inOrder 0 [undescribed] ⟨"g", "n", "latest.release"⟩).sessions[0]?.any
      fun s => s.history.contains (.listing .nearby ⟨"g", "n", "latest.release"⟩ finalListing) &&
        s.history.any (·.tier == .remote)) = true := by
    rw [Policy.standard_eq]
    decide +kernel
  have hnone : ((resolve (.standard {}) .inOrder 0 [undescribed] ⟨"g", "n", "latest.release"⟩).states[0]?.any
      fun s => s.matching.isEmpty) = true := by
    rw [Policy.standard_eq]
    decide +kernel
  rw [hsession] at hshown
  rw [hlast] at hnone
  obtain ⟨hlisting, hremote⟩ := Bool.and_eq_true_iff.mp hshown
  exact ⟨last, asked, hlast, hsession, by simpa [Session.after, undescribed] using hlisting, by simpa using hnone,
    by simpa [Session.after, undescribed] using hremote⟩

/-- A nearby listing with authority in which nothing is matched does not keep the remote tier from being asked. -/
theorem not_all_final_listings_spare :
    ¬∀ (rules : Rules) (schedule : Schedule) (turn : Nat) (sessions : List Session) (request : Request) (i : Nat)
      (session : Session) (asked : History) (nearby : ListingOutcome) (versions : List String) (last : RequestState),
      sessions[i]? = some session →
      (resolve (.standard rules) schedule turn sessions request).sessions[i]? = some (session.after asked) →
      .listing .nearby request nearby ∈ asked → nearby.result = some (.listed versions) → nearby.authoritative = true →
      (resolve (.standard rules) schedule turn sessions request).states[i]? = some last → last.matching = [] →
      ∀ a ∈ asked, a.tier ≠ .remote := by
  intro h
  obtain ⟨last, asked, hlast, hsession, hlisting, hnone, a, ha, hr⟩ := resolve_undescribed
  exact h {} .inOrder 0 _ _ 0 undescribed asked finalListing ["1.0"] last rfl hsession hlisting rfl rfl hlast hnone a ha hr

theorem authoritative_listing_closes_remote_undescribed :
    ∃ asked last a,
      [undescribed][0]? = some undescribed ∧
      (resolve (.standard {}) .inOrder 0 [undescribed] ⟨"g", "n", "latest.release"⟩).sessions[0]? =
        some (undescribed.after asked) ∧
      .listing .nearby ⟨"g", "n", "latest.release"⟩ finalListing ∈ asked ∧
      finalListing.result = some (.listed ["1.0"]) ∧ finalListing.authoritative = true ∧
      asked.filter Access.isListing = [.listing .nearby ⟨"g", "n", "latest.release"⟩ finalListing] ∧
      (resolve (.standard {}) .inOrder 0 [undescribed] ⟨"g", "n", "latest.release"⟩).states[0]? = some last ∧
      last.matching = [] ∧ a ∈ asked ∧ a.tier = .remote ∧
      ∃ status, Matcher.ofSelector "latest.release" = .ok (.latest (some status)) ∧
        CompletesMetadata ⟨"g", "n", "latest.release"⟩ asked (.latest (some status)) ["1.0"] [] a := by
  obtain ⟨last, asked, hlast, hsession, hlisting, hnone, a, ha, hr⟩ := resolve_undescribed
  obtain ⟨hlistings, last', hlast', hall⟩ := authoritative_listing_closes_remote rfl hsession hlisting rfl rfl
  obtain rfl := Option.some.inj (hlast'.symm.trans hlast)
  exact ⟨asked, last', a, rfl, hsession, hlisting, rfl, rfl, hlistings, hlast, hnone, ha, hr, hall hnone a ha hr⟩

end Resolver

end VersionChain
