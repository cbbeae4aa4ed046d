import VersionChain.Policy.Scripted
import VersionChain.Proofs.Course
import VersionChain.Repository.Catalogue

/-!
# How often a request asks

Whatever a policy makes of what it is offered, a request asks a repository for one nearby listing, at most one remote listing, and
at most once for the metadata of a version in each tier, the nearby tier first. `ListsRemotely` and `FetchesRemotely` say exactly
when the remote tier is asked as well.
-/

namespace VersionChain

/-! ## When the remote tier is asked -/

/-- The nearby tier knew nothing, or that the component is missing but not for certain. -/
def FetchesRemotely (nearby : LookupOutcome) : Prop :=
  nearby.result = none ∨ nearby.result = some .missing ∧ nearby.authoritative = false

/-- The nearby tier knew no versions, or listed some but not for certain while the first pass came to nothing: it had no winner,
and this repository found nothing. -/
def ListsRemotely (winner : Option Resolver.Winner) (nearby : ListingOutcome) (first : RequestState) : Prop :=
  nearby.result = none ∨
    (∃ versions, nearby.result = some (.listed versions)) ∧ nearby.authoritative = false ∧ winner = none ∧
      (first.outcome = none ∨ first.outcome = some .missing)

/-- The accesses of a request to one repository keep the budget: one nearby listing, and a remote one after it exactly if
`ListsRemotely`; for each version none, or one nearby lookup, and a remote one after it exactly if `FetchesRemotely`. -/
structure KeepsBudget (request : Request) (winner : Option Resolver.Winner) (first : RequestState) (nearby : ListingOutcome)
    (asked : History) : Prop where
  listings :
    ListsRemotely winner nearby first ∧ (∃ remote, asked.filter Access.isListing =
      [.listing .nearby request nearby, .listing .remote request remote]) ∨
    ¬ListsRemotely winner nearby first ∧ asked.filter Access.isListing = [.listing .nearby request nearby]
  lookups : ∀ version,
    asked.filter (·.concerns version) = [] ∨
    (∃ o, asked.filter (·.concerns version) =
      [.lookup .nearby (request.component version) (request.pinned version) o] ∧ ¬FetchesRemotely o) ∨
    (∃ o o', asked.filter (·.concerns version) =
      [.lookup .nearby (request.component version) (request.pinned version) o,
        .lookup .remote (request.component version) (request.pinned version) o'] ∧ FetchesRemotely o)

/-- The accesses that concern one version: none, the nearby tier, or the nearby tier and then the remote one. -/
theorem CandidateProbe.Traced.cases {component : Component} {requested : Request} {asked : History}
    {found : Option LookupOutcome} (h : Traced component requested asked found) :
    asked = [] ∨
      (∃ o, asked = [.lookup .nearby component requested o] ∧ ¬FetchesRemotely o) ∨
      (∃ o o', asked = [.lookup .nearby component requested o, .lookup .remote component requested o'] ∧
        FetchesRemotely o) := by
  cases h with
  | untried => exact Or.inl rfl
  | nearby enough =>
    refine Or.inr (Or.inl ⟨_, rfl, fun hf => ?_⟩)
    rw [(needsRemote_iff _).mpr hf] at enough
    nomatch enough
  | both silent => exact Or.inr (Or.inr ⟨_, _, rfl, (needsRemote_iff _).mp silent⟩)

/-- With the nearby tier asked alone, the probe is in the state that tier gave. -/
theorem ListingProbe.Traced.state_eq {request : Request} {o : ListingOutcome} {p : ListingProbe}
    (h : Traced request [.listing .nearby request o] p) : p.state = o.result := by
  cases h with
  | remoteLeft known pending => simp [state, Outcome.absorb, known]
  | closed known final => simp [state, Outcome.absorb, known]

/-- With both tiers asked, the probe is in the state that the remote tier gave, if it knew anything. -/
theorem ListingProbe.Traced.state_both {request : Request} {o o' : ListingOutcome} {p : ListingProbe}
    (h : Traced request [.listing .nearby request o, .listing .remote request o'] p) : p.state = o'.result.or o.result := by
  cases h with
  | both pending => rw [state, Outcome.result_absorb, Outcome.result_unknown_absorb]

namespace RequestState

/-- A step whose listing failed comes to that failure. -/
theorem outcome_resolve_of_failed {s : RequestState} (h : s.ProbesFit) {policy : Policy} {turn : Nat} {f : Failure}
    (hf : (s.resolve policy turn).2.listing.state = some (.failed f)) :
    (s.resolve policy turn).2.outcome = some (.failed f) := by
  obtain ⟨asked, hadv⟩ := resolve_advances h policy turn
  rw [hadv.listing] at hf
  rw [resolve_eq, hf]
  rfl

end RequestState

/-- A repository that found nothing in the first step, and knew something nearby, did list versions there. -/
theorem Course.listed_of_foundNothing {policy : Policy} {request : Request} {session : Session} {winner : Option Resolver.Winner}
    {first last : RequestState} {nearby : ListingOutcome} {before later : History}
    (h : Course policy request session winner first last nearby before later) (hknown : nearby.hasResult = true)
    (hnothing : first.FoundNothing) : ∃ versions, nearby.result = some (.listed versions) := by
  have htr := h.accounted_first.listing
  rw [h.listings_of_known hknown] at htr
  have hstate := htr.state_eq
  obtain ⟨turn, rfl⟩ := h.begun
  cases hr : nearby.result with
  | none => simp [Outcome.hasResult, hr] at hknown
  | some r =>
    cases r with
    | listed versions => exact ⟨versions, rfl⟩
    | failed f =>
      have hfail := RequestState.outcome_resolve_of_failed (RequestState.accounted_start request session).fit (hstate.trans hr)
      exact absurd hfail (hnothing.outcome_ne_failed f)

namespace Resolver

variable (policy : Policy) (schedule : Schedule) (turn : Nat) (sessions : List Session) (request : Request)

/-- Under any policy, the state of a repository in the end accounts for accesses that keep the budget. -/
theorem accounted_within_budget {i : Nat} {session : Session} (hi : sessions[i]? = some session) :
    ∃ t first asked nearby,
      (resolve policy schedule turn sessions request).states[i]? = some t ∧
      (firstPass policy schedule turn sessions request).states[i]? = some first ∧
      t.Accounted request session asked ∧
      KeepsBudget request (firstVerdicts policy schedule turn sessions request).winner first nearby asked := by
  obtain ⟨first, last, nearby, before, later, hfirst, hlast, hcourse⟩ :=
    course_resolve policy schedule turn sessions request hi
  refine ⟨last, first, before ++ later, nearby, hlast, hfirst, hcourse.accounted_last, ?_,
    fun version => (hcourse.accounted_last.lookups version).cases⟩
  rcases hcourse.ended with ⟨hwin, hdef, -, -, remote, hlater⟩ | ⟨hstop, -, rfl⟩
  · -- the repository was asked again, so the nearby tier had a result without authority
    obtain ⟨hnothing, hgo⟩ := RequestState.outcome_eq_of_isDeferred hdef
    obtain ⟨hknown, hpending⟩ := hcourse.further.mp hgo
    have hbefore := hcourse.listings_of_known hknown
    have hlisted := hcourse.listed_of_foundNothing hknown hnothing
    refine Or.inl ⟨Or.inr ⟨hlisted, hpending, hwin, hnothing⟩, remote, ?_⟩
    rw [List.filter_append, hbefore, hlater]
    rfl
  · rw [List.append_nil]
    rcases hcourse.listings with ⟨hlistings, hknown⟩ | ⟨hlistings, hunknown⟩
    · refine Or.inr ⟨?_, hlistings⟩
      rintro (hnone | ⟨-, hpending, hwin, hnothing⟩)
      · simp [Outcome.hasResult, hnone] at hknown
      · -- such a repository would have been asked again
        exact hstop ⟨hwin, RequestState.FoundNothing.isDeferred hnothing (hcourse.further.mpr ⟨hknown, hpending⟩)⟩
    · exact Or.inl ⟨Or.inl (by simpa [Outcome.hasResult] using hunknown), hlistings⟩

/-- Under any policy, a request keeps the budget in every repository. -/
theorem asks_each_tier_once {i : Nat} {session : Session} (hi : sessions[i]? = some session) :
    ∃ asked nearby first,
      (resolve policy schedule turn sessions request).sessions[i]? = some (session.after asked) ∧
      (firstPass policy schedule turn sessions request).states[i]? = some first ∧
      KeepsBudget request (firstVerdicts policy schedule turn sessions request).winner first nearby asked := by
  obtain ⟨t, first, asked, nearby, ht, hfirst, hacc, hkeeps⟩ :=
    accounted_within_budget policy schedule turn sessions request hi
  refine ⟨asked, nearby, first, ?_, hfirst, hkeeps⟩
  rw [Run.sessions, List.getElem?_map, ht, Option.map_some, hacc.visit.session]

/-- A policy that matches a version nobody listed, twice over, and asks for metadata it has no use for. -/
def meddlesome : Policy := .scripted [[.isMatch "9", .inspect "1", .isMatch "9", .noMatch, .inspect "1"]] .first

/-- A repository that lists a version nearby, not for certain, and knows nothing of it there. -/
def uncertain : Session where
  repository := .ofCatalogues "uncertain" (({} : Catalogue).putListing ⟨"g", "n"⟩ (.versions ["1"])) {}

theorem asks_each_tier_once_meddlesome :
    [uncertain][0]? = some uncertain ∧
      ∃ asked nearby first,
        (resolve meddlesome .inOrder 0 [uncertain] ⟨"g", "n", "latest"⟩).sessions[0]? = some (uncertain.after asked) ∧
        (firstPass meddlesome .inOrder 0 [uncertain] ⟨"g", "n", "latest"⟩).states[0]? = some first ∧
        KeepsBudget ⟨"g", "n", "latest"⟩
          (firstVerdicts meddlesome .inOrder 0 [uncertain] ⟨"g", "n", "latest"⟩).winner first nearby asked :=
  ⟨rfl, asks_each_tier_once meddlesome .inOrder 0 [uncertain] ⟨"g", "n", "latest"⟩ rfl⟩

end Resolver

end VersionChain
