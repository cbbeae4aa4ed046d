import VersionChain.Proofs.Budget
import VersionChain.Proofs.Reordering

/-!
# Selectors that cannot be read

That a selector cannot be read shows in each repository only after its versions are listed. Such a request asks for no metadata and
for no remote listing that is not needed, it is never deferred, and it fails with one cause for each repository that has a listing
to show.
-/

namespace VersionChain

/-- The first step of a request in search of a listing. -/
def ListingProbe.begin (request : Request) (session : Session) : ListingProbe × Visit :=
  ListingProbe.resolve { request } { session }

/-- A first step that leaves something to ask has come to a listing. -/
theorem ListingProbe.begin_canGoFurther {request : Request} {session : Session}
    (h : (begin request session).1.canGoFurther = true) : (begin request session).1.state ≠ none := by
  obtain ⟨nearby, more, -, htraced, hmore, hfurther⟩ := traced_resolve_fresh request { session }
  obtain ⟨hknown, -⟩ := hfurther.mp h
  rcases hmore with ⟨rfl, -⟩ | ⟨-, hunknown⟩
  · have hstate : (begin request session).1.state = nearby.result := htraced.state_eq
    rw [hstate]
    exact Option.isSome_iff_ne_none.mp hknown
  · nomatch hknown.symm.trans hunknown

theorem ListingProbe.attempts_begin (request : Request) (session : Session) : (begin request session).2.attempts = [] := by
  unfold begin resolve ask askRemote ask Visit.list
  dsimp only
  split <;> rfl

/-- What a listing amounts to under a selector that was refused: its own failure, or that there is no selecting among its
versions. -/
def Listing.refused (request : Request) (refusal : SelectorError) : Listing → Failure
  | .listed _ => .selection request.text refusal.message
  | .failed f => f

namespace RequestState

/-- The state knows just what the first step of its listing probe found, and has come to what that amounts to under a selector that
was refused. -/
structure Refused (request : Request) (refusal : SelectorError) (session : Session) (s : RequestState) : Prop where
  visit : s.visit = (ListingProbe.begin request session).2
  listing : s.listing = (ListingProbe.begin request session).1
  unmatched : s.unmatched = []
  rejected : s.rejected = []
  outcome : s.outcome = (ListingProbe.begin request session).1.state.map fun l => .failed (l.refused request refusal)

variable {request : Request} {refusal : SelectorError} {session : Session} {s : RequestState}

theorem Refused.adopted?_eq (h : s.Refused request refusal session) : s.adopted? = none := by
  rw [adopted?, h.outcome]
  cases (ListingProbe.begin request session).1.state <;> rfl

theorem Refused.failure?_eq (h : s.Refused request refusal session) :
    s.failure? = (ListingProbe.begin request session).1.state.map (Listing.refused request refusal) := by
  rw [failure?, h.outcome]
  cases (ListingProbe.begin request session).1.state <;> rfl

/-- Where something is left to ask there was a listing, and a listing is enough to fail. -/
theorem Refused.isDeferred_eq (h : s.Refused request refusal session) : s.isDeferred = false := by
  rw [isDeferred, canGoFurther, h.listing, h.outcome]
  cases hgo : (ListingProbe.begin request session).1.canGoFurther with
  | false => rw [Bool.and_false]
  | true =>
    obtain ⟨l, hl⟩ := Option.ne_none_iff_exists'.mp (ListingProbe.begin_canGoFurther hgo)
    rw [hl]
    rfl

theorem Refused.attempted_eq (h : s.Refused request refusal session) :
    s.attempted = (ListingProbe.begin request session).1.attempted := by
  rw [attempted, h.visit, h.listing, ListingProbe.attempts_begin, List.append_nil]

/-- Versions offered under a selector that was refused come to a failure, whatever they are. -/
theorem select_of_refused (hsel : Matcher.ofSelector request.selector = .error refusal) (rules : Rules)
    (hreq : s.request = request) (hnone : s.selected = none) (turn : Nat) (versions : List String) :
    s.select (.standard rules) turn versions =
      { s with
        matching := []
        candidates := (versions.foldl withProbe { s with matching := [] }).candidates
        resolved := { s.resolved with result := some (.failed (.selection request.text refusal.message)) } } := by
  have hchoice : ∀ offered, (Policy.standard rules).select turn offered request =
      .report (.failed (.selection request.text refusal.message)) .done := by
    intro offered
    show Policy.standardSelect rules offered request = _
    rw [Policy.standardSelect, hsel]
  unfold select
  dsimp only
  rw [foldl_withProbe_frame versions { s with matching := [] }]
  dsimp only
  rw [hreq, hchoice]
  unfold follow apply follow conclude
  dsimp only
  rw [hnone]

/-- One step under a selector that was refused asks no further than the listing. -/
theorem refused_next (hsel : Matcher.ofSelector request.selector = .error refusal) (rules : Rules) (session : Session) :
    ((start request session).next rules).Refused request refusal session := by
  unfold next
  rcases resolve_cases (.standard rules) 0 (start request session) with ⟨f, hf, hs⟩ | ⟨versions, hv, hs⟩ | ⟨hnone, hs⟩
  · have hstate : (ListingProbe.begin request session).1.state = some (.failed f) := hf
    rw [hs]
    exact ⟨rfl, rfl, rfl, rfl, by rw [hstate]; rfl⟩
  · have hstate : (ListingProbe.begin request session).1.state = some (.listed versions) := hv
    rw [hs, select_of_refused hsel rules rfl rfl]
    exact ⟨rfl, rfl, rfl, rfl, by rw [hstate]; rfl⟩
  · have hstate : (ListingProbe.begin request session).1.state = none := hnone
    rw [hs]
    exact ⟨rfl, rfl, rfl, rfl, by rw [hstate]; rfl⟩

end RequestState

namespace Resolver

section

variable {request : Request} {refusal : SelectorError} (hsel : Matcher.ofSelector request.selector = .error refusal)
  (rules : Rules) (schedule : Schedule) (turn : Nat) (sessions : List Session)

include hsel

theorem refused_of_mem_begun {s : RequestState} (hs : s ∈ begun rules sessions request) :
    ∃ session, s.Refused request refusal session := by
  obtain ⟨session, -, rfl⟩ := List.mem_map.mp hs
  exact ⟨session, RequestState.refused_next hsel rules session⟩

/-- Under a selector that was refused, the first pass shows failures only: those that the listings amount to, in order. -/
theorem firstVerdicts_of_refused :
    firstVerdicts (.standard rules) schedule turn sessions request =
      { failures := (sessions.filterMap fun session => (ListingProbe.begin request session).1.state).map
          (Listing.refused request refusal) } := by
  have hwinner : (firstVerdicts (.standard rules) schedule turn sessions request).winner = none := by
    rw [← Option.isNone_iff_eq_none, ← Option.not_isSome, isSome_winner_standard, Bool.not_eq_true', List.any_eq_false]
    intro s hs
    obtain ⟨session, hrefused⟩ := refused_of_mem_begun hsel rules sessions hs
    rw [hrefused.adopted?_eq]
    nofun
  have hdeferred : (firstVerdicts (.standard rules) schedule turn sessions request).deferred = [] := by
    rw [deferred_standard, deferrals, List.filter_eq_nil_iff]
    intro i _ hi
    obtain ⟨s, hs, hdef⟩ := (Option.any_eq_true _ _).mp hi
    obtain ⟨session, hrefused⟩ := refused_of_mem_begun hsel rules sessions (List.mem_of_getElem? hs)
    nomatch hdef.symm.trans hrefused.isDeferred_eq
  have hfailures : (firstVerdicts (.standard rules) schedule turn sessions request).failures =
      (sessions.filterMap fun session => (ListingProbe.begin request session).1.state).map
        (Listing.refused request refusal) := by
    rw [firstVerdicts_standard, classify_failures, failuresAt, filterMap_range_getElem?, begun, List.filterMap_map,
      List.map_filterMap]
    exact congrArg (sessions.filterMap ·) (funext fun session => (RequestState.refused_next hsel rules session).failure?_eq)
  generalize firstVerdicts (.standard rules) schedule turn sessions request = verdicts at *
  cases verdicts
  simp only at hwinner hdeferred hfailures
  rw [hwinner, hdeferred, hfailures]

/-- Under a selector that was refused, the first pass has searched for listings and passed over no version. -/
theorem notFound_begun_of_refused :
    notFound request (begun rules sessions request) =
      .notFound request.text
        (Text.distinct (sessions.flatMap fun session => (ListingProbe.begin request session).1.attempted)) [] [] := by
  have hrefused := RequestState.refused_next hsel rules
  unfold notFound begun
  simp only [List.flatMap_map, (hrefused _).attempted_eq, (hrefused _).unmatched, (hrefused _).rejected]
  rw [List.flatMap_eq_nil_iff.mpr fun _ _ => rfl]
  rfl

/-- A request with a selector that cannot be read is never resolved. It fails with a cause for each repository whose first step came
to a listing or to the failure of one, in the order of registration; where there is none, nothing was found and no version passed
over. Every repository was asked for a nearby listing, for a remote one only if the nearby tier knew nothing, and for nothing
else. -/
theorem resolve_refused :
    let run := resolve (.standard rules) schedule turn sessions request
    let listings := sessions.filterMap fun session => (ListingProbe.begin request session).1.state
    run.result =
        (if listings = [] then
          .error (.notFound request.text
            (Text.distinct (sessions.flatMap fun session => (ListingProbe.begin request session).1.attempted)) [] [])
        else .error (.unresolved request.text (listings.map (Listing.refused request refusal)))) ∧
      ∀ (i : Nat) (session : Session), sessions[i]? = some session → ∃ nearby,
        nearby.hasResult = true ∧ run.sessions[i]? = some (session.after [.listing .nearby request nearby]) ∨
        nearby.hasResult = false ∧ ∃ remote, run.sessions[i]? =
          some (session.after [.listing .nearby request nearby, .listing .remote request remote]) := by
  intro run listings
  have hverdicts := firstVerdicts_of_refused hsel rules schedule turn sessions
  obtain ⟨hstates, hresult⟩ := resolve_of_no_deferred (.standard rules) schedule turn sessions request
    (by rw [hverdicts]) (by rw [hverdicts])
  rw [firstPass_standard] at hstates hresult
  constructor
  · rw [show run.result = _ from hresult, hverdicts]
    unfold conclusion
    dsimp only
    rw [notFound_begun_of_refused hsel]
    simp only [List.isEmpty_iff, List.map_eq_nil_iff]
    rfl
  · intro i session hi
    obtain ⟨nearby, more, hasks, -, hmore, -⟩ := ListingProbe.traced_resolve_fresh request { session }
    have hsession : run.sessions[i]? = some (session.after (.listing .nearby request nearby :: more)) := by
      rw [Run.sessions, show run.states = _ from hstates, begun, List.map_map, List.getElem?_map, hi, Option.map_some,
        Function.comp_apply, (RequestState.refused_next hsel rules session).visit]
      exact congrArg some hasks.session
    refine ⟨nearby, ?_⟩
    rcases hmore with ⟨rfl, hknown⟩ | ⟨⟨remote, rfl⟩, hunknown⟩
    · exact Or.inl ⟨hknown, hsession⟩
    · exact Or.inr ⟨hunknown, remote, hsession⟩

end

/-- Repositories that list versions nearby, list them remotely, fail to list any, and know nothing. -/
def variously : List Session := [
  { repository := .ofCatalogues "near" (({} : Catalogue).putModules ⟨"g", "n"⟩ ["1.0", "2.0"]) {} },
  { repository := .ofCatalogues "far" {} (({} : Catalogue).putModules ⟨"g", "n"⟩ ["1.5"]) },
  { repository := .ofCatalogues "broken" (({} : Catalogue).putListing ⟨"g", "n"⟩ (.failure "no index")) {} },
  { repository := .ofCatalogues "silent" {} {} }]

theorem resolve_refused_variously :
    let request : Request := ⟨"g", "n", "[2.0,1.0]"⟩
    Matcher.ofSelector request.selector = .error ⟨"[2.0,1.0]", .malformedRange⟩ ∧
      (resolve (.standard {}) .inOrder 0 variously request).result =
        .error (.unresolved "g:n:[2.0,1.0]" [
          .selection "g:n:[2.0,1.0]" "Invalid version selector '[2.0,1.0]': malformed version range",
          .selection "g:n:[2.0,1.0]" "Invalid version selector '[2.0,1.0]': malformed version range",
          .access "broken" .nearby "g:n" "no index"]) := by
  intro request
  have hread : Matcher.ofSelector "[2.0,1.0]" = .error ⟨"[2.0,1.0]", .malformedRange⟩ := by rfl
  have hsel : Matcher.ofSelector request.selector = .error ⟨"[2.0,1.0]", .malformedRange⟩ := hread
  obtain ⟨hresult, -⟩ := resolve_refused hsel {} .inOrder 0 variously
  exact ⟨hsel, hresult.trans (by decide +kernel)⟩

end Resolver

end VersionChain
