import VersionChain.Proofs.Runs

/-!
# The course of a request in one repository

A request goes through a repository in one step, or in two. `Course` puts together what the steps ask there, when there is a
second one, and what is known after each; `course_resolve` says that every request takes such a course in every repository.
-/

namespace VersionChain

/-- How a request goes in one repository: by one step, and by a second one exactly when the first pass had no winner and deferred
the repository. The accesses of the second step come later. -/
structure Course (policy : Policy) (request : Request) (session : Session) (winner : Option Resolver.Winner)
    (first last : RequestState) (nearby : ListingOutcome) (before later : History) : Prop where
  begun : ∃ turn, first = ((RequestState.start request session).resolve policy turn).2
  accounted_first : first.Accounted request session before
  accounted_last : last.Accounted request session (before ++ later)
  /-- The first step asks for a nearby listing, and for a remote one only if the nearby tier knew nothing. -/
  listings :
    before.filter Access.isListing = [.listing .nearby request nearby] ∧ nearby.hasResult = true ∨
      (∃ remote, before.filter Access.isListing = [.listing .nearby request nearby, .listing .remote request remote]) ∧
        nearby.hasResult = false
  further : first.canGoFurther = true ↔ nearby.hasResult = true ∧ nearby.authoritative = false
  /-- What is known after the first step is known in the end. -/
  known : ∀ v o, first.found? v = some o → last.found? v = some o
  ended :
    winner = none ∧ first.isDeferred = true ∧ (∃ turn, last = (first.quiet.resolve policy turn).2) ∧
        last.canGoFurther = false ∧ (∃ remote, later.filter Access.isListing = [.listing .remote request remote]) ∨
      ¬(winner = none ∧ first.isDeferred = true) ∧ last.quiet = first.quiet ∧ later = []

/-- Where the nearby tier knew something, the first step asks for no other listing. -/
theorem Course.listings_of_known {policy : Policy} {request : Request} {session : Session} {winner : Option Resolver.Winner}
    {first last : RequestState} {nearby : ListingOutcome} {before later : History}
    (h : Course policy request session winner first last nearby before later) (known : nearby.hasResult = true) :
    before.filter Access.isListing = [.listing .nearby request nearby] := by
  rcases h.listings with ⟨hlistings, -⟩ | ⟨-, hunknown⟩
  · exact hlistings
  · nomatch known.symm.trans hunknown

namespace Resolver

/-- Under any policy, a request takes such a course in every repository. -/
theorem course_resolve (policy : Policy) (schedule : Schedule) (turn : Nat) (sessions : List Session) (request : Request)
    {i : Nat} {session : Session} (hi : sessions[i]? = some session) :
    ∃ first last nearby before later,
      (firstPass policy schedule turn sessions request).states[i]? = some first ∧
      (resolve policy schedule turn sessions request).states[i]? = some last ∧
      Course policy request session (firstVerdicts policy schedule turn sessions request).winner first last nearby before
        later := by
  obtain ⟨first, last, hfirst, ⟨turn', rfl⟩, hlast, hcase⟩ := states_resolve policy schedule turn sessions request hi
  obtain ⟨nearby, more, lookups, hacc, hmore, hfurther, hlook⟩ :=
    RequestState.accounted_resolve_start request session policy turn'
  have hstage := hacc.listing.stage_ne_fresh
  have hlookups := filter_isListing_eq_nil hlook
  have hlistings : (.listing .nearby request nearby :: more ++ lookups : History).filter Access.isListing =
      .listing .nearby request nearby :: more.filter Access.isListing := by
    rw [List.filter_append, hlookups, List.append_nil]
    rfl
  generalize .listing .nearby request nearby :: more ++ lookups = before at hacc hlistings
  have hquiet := RequestState.accounted_quiet_iff.mpr hacc
  have hcourse : before.filter Access.isListing = [.listing .nearby request nearby] ∧ nearby.hasResult = true ∨
      (∃ remote, before.filter Access.isListing = [.listing .nearby request nearby, .listing .remote request remote]) ∧
        nearby.hasResult = false := by
    rcases hmore with ⟨rfl, hknown⟩ | ⟨⟨remote, rfl⟩, hunknown⟩
    · exact Or.inl ⟨hlistings, hknown⟩
    · exact Or.inr ⟨⟨remote, hlistings⟩, hunknown⟩
  rcases hcase with ⟨hwin, hdef, turn'', rfl⟩ | ⟨hstop, hq⟩
  · obtain ⟨more', lookups', hacc', hremote, -, hgo, hlook'⟩ := hquiet.resolve_later hstage policy turn''
    obtain ⟨remote, rfl⟩ := hremote (RequestState.outcome_eq_of_isDeferred hdef).2
    obtain ⟨_, hadv⟩ := RequestState.resolve_advances hquiet.fit policy turn''
    have hlater : (.listing .remote request remote :: lookups' : History).filter Access.isListing =
        [.listing .remote request remote] := congrArg (_ :: ·) (filter_isListing_eq_nil hlook')
    refine ⟨_, _, nearby, before, .listing .remote request remote :: lookups', hfirst, hlast, ?_⟩
    exact {
      begun := ⟨turn', rfl⟩
      accounted_first := hacc
      accounted_last := by simpa using hacc'
      listings := hcourse
      further := hfurther
      known := fun v o ho => (hadv.known v o ho).1
      ended := Or.inl ⟨hwin, hdef, ⟨turn'', rfl⟩, hgo, remote, hlater⟩ }
  · rw [← hq, RequestState.accounted_quiet_iff] at hquiet
    refine ⟨_, last, nearby, before, [], hfirst, hlast, ?_⟩
    exact {
      begun := ⟨turn', rfl⟩
      accounted_first := hacc
      accounted_last := by rwa [List.append_nil]
      listings := hcourse
      further := hfurther
      known := fun v o ho => by
        have hfound : last.quiet.found? v = some o := by
          rw [hq]
          exact ho
        exact hfound
      ended := Or.inr ⟨hstop, hq, rfl⟩ }

end Resolver

end VersionChain
