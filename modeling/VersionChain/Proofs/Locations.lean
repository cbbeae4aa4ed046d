import VersionChain.Proofs.Diagnostics
import VersionChain.Repository.Scripted

/-!
# What an error says of the locations searched

A request that finds nothing reports where it has searched. The locations of listings are kept by the listing probe, those of
metadata by the visit, over both steps. `searched` says what they come to as a function of the accesses alone, whatever the policy
made of the answers: answers that know nothing name locations like all others.
-/

namespace VersionChain

/-! ## What a visit is told by its accesses -/

section

variable {P : Visit → Prop}

/-- Whatever asking for metadata keeps is kept by a search for metadata. -/
theorem CandidateProbe.search_keeps (hlookup : ∀ v tier component requested, P v → P (v.lookup tier component requested).2)
    (p : CandidateProbe) {v : Visit} (h : P v) : P (p.search v).2 := by
  have h1 := hlookup v .nearby p.component p.requested h
  unfold search
  generalize v.lookup .nearby p.component p.requested = l at h1
  obtain ⟨o, v1⟩ := l
  by_cases hn : needsRemote o = true
  · simpa [hn] using hlookup v1 .remote p.component p.requested h1
  · simpa [hn] using h1

/-- Whatever asking for versions keeps is kept by a step of a listing probe. -/
theorem ListingProbe.resolve_keeps (hlist : ∀ v tier request, P v → P (v.list tier request).2) (p : ListingProbe) {v : Visit}
    (h : P v) : P (p.resolve v).2 := by
  have h1 := hlist v .nearby p.request h
  unfold resolve
  cases p.stage with
  | fresh =>
    dsimp only
    split
    · exact h1
    · exact hlist _ .remote p.request h1
  | remoteLeft => exact hlist v .remote p.request h
  | settled => exact h

namespace RequestState

variable (hlookup : ∀ v tier component requested, P v → P (v.lookup tier component requested).2)

include hlookup in
theorem consult_keeps {s : RequestState} (h : P s.visit) (version : String) : P (s.consult version).2.visit := by
  cases hf : s.found? version with
  | some o =>
    rw [(consult_of_found hf).2]
    exact h
  | none =>
    rw [(consult_of_not_found hf).2]
    exact (s.probeFor version).search_keeps hlookup h

variable (htell : ∀ v e, P v → P (v.tell e))

include htell in
theorem noticing_keeps {s : RequestState} (h : P s.visit) (c : Component) : P (s.noticing c).visit := by
  unfold noticing
  split
  · exact h
  · exact htell _ _ h

include htell in
theorem taken_keeps (c : Component) {r : LookupOutcome × RequestState} (h : P r.2.visit) : P (taken c r).visit := by
  unfold taken
  dsimp only
  split
  · exact h
  · exact htell _ _ h

include hlookup htell

theorem apply_keeps {s : RequestState} (h : P s.visit) (verdict : Verdict) : P (s.apply verdict).visit := by
  cases verdict with
  | isMatch c =>
    unfold apply
    dsimp only
    split
    · exact h
    · have hmatched : P ({ s with matching := s.matching ++ [c.version] } : RequestState).visit := h
      rw [adopt_eq]
      exact taken_keeps htell c (consult_keeps hlookup (noticing_keeps htell hmatched c) c.version)
  | notMatched | rejected | noMatch | failed => exact h

/-- Whatever asking for metadata and telling keep is kept by a selection, under any policy. -/
theorem follow_keeps (offered : List String) (sel : Selection) :
    ∀ {s : RequestState}, P s.visit → P (follow offered sel s).visit := by
  induction sel with
  | done => intro s h; exact h
  | report verdict next ih => intro s h; exact ih (apply_keeps hlookup htell h verdict)
  | inspect position next ih =>
    intro s h
    unfold follow
    cases offered[position]? with
    | none => exact ih .unknown h
    | some version => exact ih _ (consult_keeps hlookup h version)

theorem select_keeps {s : RequestState} (h : P s.visit) (policy : Policy) (turn : Nat) (versions : List String) :
    P (s.select policy turn versions).visit := by
  have hprobes : P (versions.foldl withProbe { s with matching := [] }).visit := by
    rw [foldl_withProbe_frame]
    exact h
  have hfollow := follow_keeps hlookup htell versions
    (policy.select turn (Candidate.offer (versions.foldl withProbe { s with matching := [] }).request versions)
      (versions.foldl withProbe { s with matching := [] }).request) hprobes
  unfold select conclude
  dsimp only
  split <;> exact hfollow

/-- Whatever the two kinds of questions and telling keep is kept by a step, under any policy. -/
theorem resolve_keeps (hlist : ∀ v tier request, P v → P (v.list tier request).2) {s : RequestState} (h : P s.visit)
    (policy : Policy) (turn : Nat) : P (s.resolve policy turn).2.visit := by
  have h1 : P s.afterListing.visit := s.listing.resolve_keeps hlist h
  rcases resolve_cases policy turn s with ⟨f, -, ht⟩ | ⟨versions, -, ht⟩ | ⟨-, ht⟩ <;> rw [ht]
  · exact h1
  · exact select_keeps hlookup htell h1 policy turn versions
  · exact h1

end RequestState

end

/-! ## The locations of accesses -/

/-- The locations that some accesses have searched for versions, those of the nearby tier first. -/
def searchedForVersions (asked : History) : List String :=
  (asked.filter fun a => a.isListing && a.tier == .nearby).flatMap Access.attempted ++
    (asked.filter fun a => a.isListing && a.tier == .remote).flatMap Access.attempted

/-- The locations that some accesses have searched for metadata, in the order of the accesses. -/
def searchedForMetadata (asked : History) : List String := (asked.filter (!·.isListing)).flatMap Access.attempted

/-- The locations that some accesses have searched: those of the nearby listing, those of the remote listing, and those of all
metadata that was asked for, in the order of the accesses. -/
def searched (asked : History) : List String := searchedForVersions asked ++ searchedForMetadata asked

theorem searchedForMetadata_append (asked more : History) :
    searchedForMetadata (asked ++ more) = searchedForMetadata asked ++ searchedForMetadata more := by
  unfold searchedForMetadata
  rw [List.filter_append, List.flatMap_append]

theorem searchedForVersions_filter (asked : History) :
    searchedForVersions (asked.filter Access.isListing) = searchedForVersions asked := by
  unfold searchedForVersions
  rw [List.filter_filter, List.filter_filter]
  simp only [Bool.and_right_comm, Bool.and_self]

/-- A listing probe has kept the locations of the listings that led to it. -/
theorem ListingProbe.Traced.attempted_eq {request : Request} {asked : History} {p : ListingProbe}
    (h : Traced request asked p) : p.attempted = searchedForVersions asked := by
  cases h with
  | fresh => rfl
  | remoteLeft | closed | both =>
    simp [ListingProbe.attempted, searchedForVersions, Access.isListing, Access.tier, Access.attempted, Outcome.unknown]

/-- A visit to a session has noted the locations of all lookups that it made there. -/
def Visit.Notes (session : Session) (v : Visit) : Prop :=
  ∃ asked, v.session = session.after asked ∧ v.attempts = searchedForMetadata asked

namespace Visit

variable {session : Session} {v : Visit}

theorem notes_begin (session : Session) : ({ session } : Visit).Notes session := ⟨[], by simp, rfl⟩

theorem Notes.lookup (h : v.Notes session) (tier : Tier) (component : Component) (requested : Request) :
    (v.lookup tier component requested).2.Notes session := by
  obtain ⟨asked, hsession, hattempts⟩ := h
  refine ⟨asked ++ [.lookup tier component requested (v.lookup tier component requested).1], ?_, ?_⟩
  · rw [(v.asks_lookup tier component requested).session, hsession, Session.after_after]
  · have hnoted : (v.lookup tier component requested).2.attempts =
        v.attempts ++ (v.lookup tier component requested).1.attempted := rfl
    rw [hnoted, hattempts, searchedForMetadata_append]
    simp [searchedForMetadata, Access.isListing, Access.attempted]

theorem Notes.list (h : v.Notes session) (tier : Tier) (request : Request) : (v.list tier request).2.Notes session := by
  obtain ⟨asked, hsession, hattempts⟩ := h
  refine ⟨asked ++ [.listing tier request (v.list tier request).1], ?_, ?_⟩
  · rw [(v.asks_list tier request).session, hsession, Session.after_after]
  · have hnoted : (v.list tier request).2.attempts = v.attempts := rfl
    rw [hnoted, hattempts, searchedForMetadata_append]
    simp [searchedForMetadata, Access.isListing]

end Visit

namespace RequestState

/-- Under any policy, a step notes the locations of the lookups that it makes. -/
theorem notes_resolve {session : Session} {s : RequestState} (h : s.visit.Notes session) (policy : Policy) (turn : Nat) :
    (s.resolve policy turn).2.visit.Notes session :=
  resolve_keeps (fun _ tier component requested hv => hv.lookup tier component requested) (fun _ _ hv => hv)
    (fun _ tier request hv => hv.list tier request) h policy turn

/-- A state that has noted everything reports the locations that the accesses it accounts for have searched. -/
theorem Accounted.attempted_eq {request : Request} {session : Session} {asked : History} {t : RequestState}
    (h : t.Accounted request session asked) (hnotes : t.visit.Notes session) : t.attempted = searched asked := by
  obtain ⟨asked', hsession, hattempts⟩ := hnotes
  obtain rfl : asked' = asked := Session.after_inj (hsession.symm.trans h.visit.session)
  rw [attempted, h.listing.attempted_eq, hattempts, searchedForVersions_filter, searched]

end RequestState

/-- Along a course, the last state has noted the locations of both steps. -/
theorem Course.notes_last {policy : Policy} {request : Request} {session : Session} {winner : Option Resolver.Winner}
    {first last : RequestState} {nearby : ListingOutcome} {before later : History}
    (h : Course policy request session winner first last nearby before later) : last.visit.Notes session := by
  have hfirst : first.visit.Notes session := by
    obtain ⟨turn, rfl⟩ := h.begun
    exact RequestState.notes_resolve (Visit.notes_begin session) policy turn
  rcases h.ended with ⟨-, -, ⟨turn, rfl⟩, -⟩ | ⟨-, hq, -⟩
  · have hquiet : first.quiet.visit.Notes session := hfirst
    exact RequestState.notes_resolve hquiet policy turn
  · have hlast : last.quiet.visit.Notes session := by
      rw [hq]
      exact hfirst
    exact hlast

namespace Resolver

/-- The state at a place reports the locations that its repository was asked to search. -/
theorem attempted_resolve (policy : Policy) (schedule : Schedule) (turn : Nat) (sessions : List Session) (request : Request) :
    (resolve policy schedule turn sessions request).states.map RequestState.attempted =
      ((resolve policy schedule turn sessions request).asked sessions).map searched := by
  refine List.ext_getElem? fun i => ?_
  rw [List.getElem?_map, List.getElem?_map]
  by_cases hlt : i < sessions.length
  · have hi : sessions[i]? = some sessions[i] := List.getElem?_eq_getElem hlt
    obtain ⟨first, last, nearby, before, later, -, hlast, hcourse⟩ := course_resolve policy schedule turn sessions request hi
    have hacc := hcourse.accounted_last
    rw [hlast, Run.getElem?_asked hi (Run.getElem?_sessions hlast hacc), Option.map_some, Option.map_some,
      hacc.attempted_eq hcourse.notes_last]
  · have hstates := length_states_resolve policy schedule turn sessions request
    have hasked := length_asked policy schedule turn sessions request
    rw [List.getElem?_eq_none (by omega), List.getElem?_eq_none (by omega)]
    rfl

/-- The error puts together the locations that the states report. -/
theorem attempted_of_notFound {policy : Policy} {schedule : Schedule} {turn : Nat} {sessions : List Session} {request : Request}
    {text : String} {attempted unmatched rejected : List String}
    (he : (resolve policy schedule turn sessions request).result = .error (.notFound text attempted unmatched rejected)) :
    attempted = Text.distinct (((resolve policy schedule turn sessions request).asked sessions).flatMap searched) := by
  obtain ⟨winner, failures, hresult, -⟩ := resolve_concludes policy schedule turn sessions request
  rw [hresult] at he
  cases winner with
  | some w => nomatch he
  | none =>
    unfold conclusion at he
    dsimp only at he
    split at he
    · obtain ⟨-, hattempted, -, -⟩ := Error.notFound.inj (Except.error.inj he)
      rw [← hattempted, List.flatMap_def, attempted_resolve, ← List.flatMap_def]
    · nomatch he

/-- The report of the locations is complete and invents nothing, whatever the policy. Every repository was asked for a nearby
listing and perhaps for a remote one, and the error names the distinct locations of these and then of the metadata asked for, in the
order of the calls, repository by repository in the order of registration. -/
theorem notFound_locates {policy : Policy} {schedule : Schedule} {turn : Nat} {sessions : List Session} {request : Request}
    {text : String} {attempted unmatched rejected : List String}
    (he : (resolve policy schedule turn sessions request).result = .error (.notFound text attempted unmatched rejected)) :
    let run := resolve policy schedule turn sessions request
    attempted = Text.distinct ((run.asked sessions).flatMap searched) ∧
      ∀ (i : Nat) (session : Session), sessions[i]? = some session → ∃ asked nearby,
        (run.asked sessions)[i]? = some asked ∧ run.sessions[i]? = some (session.after asked) ∧
        (asked.filter Access.isListing = [.listing .nearby request nearby] ∨ ∃ remote,
          asked.filter Access.isListing = [.listing .nearby request nearby, .listing .remote request remote]) := by
  intro run
  refine ⟨?_, fun i session hi => ?_⟩
  · exact attempted_of_notFound he
  · obtain ⟨t, first, asked, nearby, ht, -, hacc, hkeeps⟩ :=
      accounted_within_budget policy schedule turn sessions request hi
    have hsession := Run.getElem?_sessions ht hacc
    refine ⟨asked, nearby, Run.getElem?_asked hi hsession, hsession, ?_⟩
    rcases hkeeps.listings with ⟨-, hboth⟩ | ⟨-, hnearby⟩
    · exact Or.inr hboth
    · exact Or.inl hnearby

/-- A repository that lists a version, not for certain, and names places even where it knows nothing. -/
def wordy : Session where
  repository := .scripted "wordy"
    { listings := [{ result := some (.listed ["1"]), attempted := ["near"] }]
      lookups := [("1", [fun _ => { attempted := ["near/1", "index"] }])] }
    { listings := [{ attempted := ["far"] }]
      lookups := [("1", [fun _ => { attempted := ["far/1", "index"] }])] }

/-- There, a policy that asks at will has it search in both steps, and every place is named once. -/
theorem notFound_locates_wordy :
    ∃ attempted unmatched rejected,
      (resolve meddlesome .inOrder 0 [wordy] ⟨"g", "n", "latest"⟩).result =
        .error (.notFound "g:n:latest" attempted unmatched rejected) ∧
      attempted = ["near", "far", "near/1", "index", "far/1"] ∧
      attempted =
        Text.distinct (((resolve meddlesome .inOrder 0 [wordy] ⟨"g", "n", "latest"⟩).asked [wordy]).flatMap searched) := by
  have hresult : (resolve meddlesome .inOrder 0 [wordy] ⟨"g", "n", "latest"⟩).error? =
      some (.notFound "g:n:latest" ["near", "far", "near/1", "index", "far/1"] [] []) := by
    decide +kernel
  have he := Run.result_of_error? hresult
  exact ⟨_, _, _, he, rfl, (notFound_locates he).1⟩

end Resolver

end VersionChain
