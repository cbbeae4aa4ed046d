import VersionChain.Proofs.Budget
import VersionChain.Proofs.Walk
import VersionChain.Repository.Catalogue

/-!
# Which failures are reported

A request that nobody resolves reports the failures that the states end with. A state ends with one outcome, so where a selector
asks for several versions the failure of one is forgotten when a later match is missing or fails in turn. `Candid` says what the
outcome tells about the failures that were met, and `failure_reported_iff` which of them the error names.
-/

namespace VersionChain

namespace CandidateProbe

/-- An access that fails is what is found out. -/
theorem Traced.found_of_failure {component : Component} {requested : Request} {asked : History} {found : Option LookupOutcome}
    (h : Traced component requested asked found) {a : Access} (ha : a ∈ asked) {f : Failure} (hf : a.failure? = some f) :
    ∃ o, found = some o ∧ o.result = some (.failed f) := by
  cases h with
  | untried => nomatch ha
  | @nearby o enough =>
    rw [List.mem_singleton] at ha
    subst ha
    exact ⟨_, rfl, by simpa using hf⟩
  | @both o o' silent =>
    rcases List.mem_pair.mp ha with rfl | rfl
    · -- a failure would have been enough
      rw [Access.failure?_lookup] at hf
      rcases (needsRemote_iff o).mp silent with hs | ⟨hs, -⟩ <;> nomatch hs.symm.trans hf
    · refine ⟨_, rfl, ?_⟩
      rw [Access.failure?_lookup] at hf
      rw [Outcome.result_absorb, hf]
      rfl

end CandidateProbe

namespace Policy

/-- What is known of the oldest admitted version of which anything is known. -/
def lastWord (matcher : Matcher) (rules : Rules) (request : Request) (versions : List String)
    (answer : String → LookupOutcome) : Option Lookup :=
  (admittedNewestFirst matcher rules request versions).reverse.findSome? fun v => (answer v).result

variable {matcher : Matcher} {rules : Rules} {request : Request} {versions : List String} {answer : String → LookupOutcome}

/-- A selection of several versions that adopts none comes to the last word, if there is one. -/
theorem result_of_several (hsel : Matcher.ofSelector request.selector = .ok matcher) (hu : matcher.isUnique = false)
    {r : Option Lookup} (hr : r = none ∨ r = some .missing)
    (hnone : (standardDigest rules request versions answer r).selected = none) (f : Failure) :
    (standardDigest rules request versions answer r).result = some (.failed f) ↔
      lastWord matcher rules request versions answer = some (.failed f) := by
  rw [standardDigest_several hsel hu] at hnone ⊢
  unfold lastWord
  generalize admittedNewestFirst matcher rules request versions = vs at hnone ⊢
  by_cases hvs : vs = []
  · subst hvs
    simp
  · rw [if_neg hvs] at hnone ⊢
    have hd : ({ result := r } : Digest).selected = none := rfl
    rcases Digest.foldl_takeMatch answer vs hd with ⟨_, _, _, m, _, _, _, hsome, _⟩ | ⟨-, -, -, hres⟩
    · nomatch hnone.symm.trans hsome
    · rw [hres]
      rcases hr with rfl | rfl <;> cases vs.reverse.findSome? fun v => (answer v).result <;> simp

/-- A selection of one version comes to the failure of any version it asks about. -/
theorem Ends.concluded {cs : List Candidate} {looked : List String} {r : Option Lookup} {e : Digest}
    (h : Ends matcher rules answer cs { asked := looked, result := r } e)
    (hlooked : ∀ v ∈ looked, ∀ f, (answer v).result ≠ some (.failed f)) {v : String} (hv : v ∈ e.asked) {f : Failure}
    (hf : (answer v).result = some (.failed f)) : e.concluded = some (.failed f) := by
  cases h with
  | nothing => exact absurd hf (hlooked v hv f)
  | @failed w g fails =>
    rcases List.mem_append.mp hv with hv | hv
    · exact absurd hf (hlooked v hv f)
    · rw [List.mem_singleton] at hv
      subst hv
      exact fails.symm.trans hf
  | @matched c mem admitted fits =>
    have hd : ({ asked := looked, result := r } : Digest).selected = none := rfl
    have hasked : v = c.component.version := by
      cases hans : (answer c.component.version).metadata? with
      | none =>
        rw [Digest.takeMatch_of_no_metadata hd hans] at hv
        rcases List.mem_append.mp hv with hv | hv
        · exact absurd hf (hlooked v hv f)
        · exact List.mem_singleton.mp hv
      | some m =>
        rw [Digest.takeMatch_of_metadata hd hans] at hv
        rcases List.mem_append.mp hv with hv | hv
        · exact absurd hf (hlooked v hv f)
        · exact List.mem_singleton.mp hv
    subst hasked
    have hans : (answer c.component.version).metadata? = none := by rw [LookupOutcome.metadata?, hf]; rfl
    rw [Digest.takeMatch_of_no_metadata hd hans, Digest.concluded, hf]
    rfl

/-- Where the selector asks for one version, the failure of any version asked about is what the digest comes to. -/
theorem concluded_of_one (hone : ∀ matcher, Matcher.ofSelector request.selector = .ok matcher → matcher.isUnique = true)
    {r : Option Lookup} {v : String} (hv : v ∈ (standardDigest rules request versions answer r).asked) {f : Failure}
    (hf : (answer v).result = some (.failed f)) :
    (standardDigest rules request versions answer r).concluded = some (.failed f) := by
  cases hmatcher : Matcher.ofSelector request.selector with
  | error e =>
    rw [standardDigest_error hmatcher] at hv
    cases hv
  | ok matcher =>
    obtain ⟨looked, hlooked, hends⟩ := standardDigest_one hmatcher (hone matcher hmatcher) rules versions answer r
    exact hends.concluded hlooked hv hf

end Policy

/-! ## What an outcome tells about failures -/

namespace RequestState

/-- What the outcome of a state tells about the failures it met. The failure of its listing is the outcome. For a selector of one
version, so is the failure of any version. For a selector of several versions that adopts none, it is the last word on the versions
listed. -/
structure Candid (rules : Rules) (s : RequestState) : Prop where
  coherent : s.Coherent
  listing : ∀ f, s.listing.state = some (.failed f) → s.outcome = some (.failed f)
  one : (∀ matcher, Matcher.ofSelector s.request.selector = .ok matcher → matcher.isUnique = true) →
    ∀ v o f, s.found? v = some o → o.result = some (.failed f) → s.outcome = some (.failed f)
  several : ∀ matcher, Matcher.ofSelector s.request.selector = .ok matcher → matcher.isUnique = false → s.adopted? = none →
    ∀ f, s.outcome = some (.failed f) ↔ s.listing.state = some (.failed f) ∨ ∃ versions,
      s.listing.state = some (.listed versions) ∧
        Policy.lastWord matcher rules s.request versions s.answer = some (.failed f)

theorem candid_start (rules : Rules) (request : Request) (session : Session) : (start request session).Candid rules where
  coherent := coherent_start request session
  listing := nofun
  one := nofun
  several := fun matcher _ _ _ f => by simp [start, outcome, ListingProbe.state, Outcome.unknown]

theorem Candid.congr {rules : Rules} {s t : RequestState} (h : s.quiet = t.quiet) (hs : s.Candid rules) : t.Candid rules := by
  have hq : ∀ u : RequestState, u.Candid rules ↔ u.quiet.Candid rules :=
    fun u => ⟨fun h => ⟨⟨h.coherent.fit, h.coherent.selected⟩, h.listing, h.one, h.several⟩,
      fun h => ⟨⟨h.coherent.fit, h.coherent.selected⟩, h.listing, h.one, h.several⟩⟩
  rw [hq] at hs ⊢
  rwa [← h]

theorem candid_select {rules : Rules} {s : RequestState} (hs : s.Candid rules) (hn : s.FoundNothing) (turn : Nat)
    {versions : List String} (hl : s.afterListing.listing.state = some (.listed versions))
    (hcoherent : (s.afterListing.select (.standard rules) turn versions).Coherent) :
    (s.afterListing.select (.standard rules) turn versions).Candid rules := by
  have hfit : s.afterListing.ProbesFit := hs.coherent.fit
  have hsel : s.afterListing.selected = none := hs.coherent.selected_eq_none hn
  obtain ⟨asked, hadv⟩ := select_advances hfit (.standard rules) turn versions
  have hmirrors := mirrors_select_standard hfit hsel rules turn versions (agreesWith_answer _)
  generalize s.afterListing.select (.standard rules) turn versions = t at hadv hmirrors hcoherent ⊢
  have hrequest : t.request = s.request := hadv.request
  have hlisting : t.listing.state = some (.listed versions) := by rw [hadv.listing, hl]
  have hout : t.outcome = (Policy.standardDigest rules s.request versions t.answer s.outcome).concluded := hmirrors.outcome
  refine {
    coherent := hcoherent
    listing := fun f hf => by
      rw [hlisting] at hf
      cases hf
    one := fun hone v o f ho hf => ?_
    several := fun matcher hmatcher hu hnone f => ?_ }
  · rw [hrequest] at hone
    have hans : (t.answer v).result = some (.failed f) := by rw [answer, ho]; exact hf
    rcases (hmirrors.found v).mp (by rw [ho]; rfl) with hbefore | hasked
    · -- then the failure was known before
      obtain ⟨o', ho'⟩ := Option.isSome_iff_exists.mp hbefore
      obtain rfl := Option.some.inj ((hadv.known v o' ho').1.symm.trans ho)
      exact absurd (hs.one hone v o' f ho' hf) (hn.outcome_ne_failed f)
    · rw [hout]
      exact Policy.concluded_of_one hone hasked hans
  · rw [hrequest] at hmatcher ⊢
    have hselected : (Policy.standardDigest rules s.request versions t.answer s.outcome).selected = none := by
      cases hd : (Policy.standardDigest rules s.request versions t.answer s.outcome).selected with
      | none => rfl
      | some m =>
        rw [Digest.concluded, hd] at hout
        exact absurd ((adopted?_eq_some_iff.mpr hout).symm.trans hnone) (Option.some_ne_none _)
    rw [hout, Digest.concluded, hselected, hlisting]
    dsimp only
    rw [Policy.result_of_several hmatcher hu hn hselected]
    simp

theorem Candid.step {rules : Rules} {s : RequestState} (h : s.Candid rules) (hn : s.FoundNothing) (turn : Nat) :
    (s.resolve (.standard rules) turn).2.Candid rules := by
  have hcoherent := h.coherent.step hn (.standard rules) turn
  rcases resolve_cases (.standard rules) turn s with ⟨g, hl, ht⟩ | ⟨versions, hl, ht⟩ | ⟨hl, ht⟩ <;>
    rw [ht] at hcoherent ⊢
  · have hout : (s.afterListing.failing g).outcome = some (.failed g) := rfl
    have hlisting : (s.afterListing.failing g).listing.state = some (.failed g) := hl
    refine {
      coherent := hcoherent
      listing := fun f hf => by
        obtain rfl := Listing.failed.inj (Option.some.inj (hlisting.symm.trans hf))
        exact hout
      one := fun hone v o f ho hf => absurd (h.one hone v o f ho hf) (hn.outcome_ne_failed f)
      several := fun matcher hmatcher hu hnone f => ?_ }
    rw [hout, hlisting]
    simp
  · exact candid_select h hn turn hl hcoherent
  · have hout : s.afterListing.outcome = s.outcome := rfl
    refine {
      coherent := hcoherent
      listing := fun f hf => nomatch hl.symm.trans hf
      one := h.one
      several := fun matcher hmatcher hu hnone f => ?_ }
    rw [hout, hl]
    simp [hn.outcome_ne_failed f]

/-- Where the budget is kept, the failure of a listing is what is listed in the end. -/
theorem Accounted.listing_of_failure {request : Request} {session : Session} {asked : History} {t first : RequestState}
    {winner : Option Resolver.Winner} {nearby : ListingOutcome} (h : t.Accounted request session asked)
    (hkeeps : KeepsBudget request winner first nearby asked) {a : Access} (ha : a ∈ asked) (hlisting : a.isListing = true)
    {f : Failure} (hf : a.failure? = some f) : t.listing.state = some (.failed f) := by
  have hmem : a ∈ asked.filter Access.isListing := List.mem_filter.mpr ⟨ha, hlisting⟩
  have htr := h.listing
  rcases hkeeps.listings with ⟨hremote, remote, hasked⟩ | ⟨-, hasked⟩ <;> rw [hasked] at hmem htr
  · rw [htr.state_both]
    rcases List.mem_pair.mp hmem with rfl | rfl <;> rw [Access.failure?_listing] at hf
    · -- then the remote tier would not have been asked
      rcases hremote with hnone | ⟨⟨versions, hlisted⟩, -⟩
      · nomatch hnone.symm.trans hf
      · nomatch hlisted.symm.trans hf
    · rw [hf]
      rfl
  · rw [List.mem_singleton] at hmem
    subst hmem
    rw [htr.state_eq]
    exact Access.failure?_listing.mp hf

end RequestState

namespace Resolver

variable {rules : Rules} {schedule : Schedule} {turn : Nat} {sessions : List Session} {request : Request}

theorem candid_of_mem {t : RequestState} (ht : t ∈ (resolve (.standard rules) schedule turn sessions request).states) :
    t.Candid rules :=
  forall_states (.standard rules) schedule turn sessions request RequestState.Candid.congr
    (fun session _ => RequestState.candid_start rules request session) (fun _ turn hn hs => hs.step hn turn) t ht

theorem request_of_mem {policy : Policy} {t : RequestState} (ht : t ∈ (resolve policy schedule turn sessions request).states) :
    t.request = request := by
  obtain ⟨i, hi⟩ := List.getElem?_of_mem ht
  have hlt := (List.getElem?_eq_some_iff.mp hi).1
  rw [length_states_resolve] at hlt
  obtain ⟨t', asked, ht', hacc⟩ :=
    accounted_resolve policy schedule turn sessions request (List.getElem?_eq_getElem hlt)
  obtain rfl := Option.some.inj (hi.symm.trans ht')
  exact hacc.about

/-- With an error, no state has adopted anything. -/
theorem adopted?_of_error {policy : Policy} {e : Error} (he : (resolve policy schedule turn sessions request).result = .error e)
    {t : RequestState} (ht : t ∈ (resolve policy schedule turn sessions request).states) : t.adopted? = none := by
  obtain ⟨winner, failures, hresult, -, hall⟩ := resolve_concludes policy schedule turn sessions request
  rw [hresult] at he
  cases winner with
  | some w => nomatch he
  | none => exact (hall rfl).1 t ht

/-- Which failures the error names: those that the states come to. -/
theorem mem_causes_iff {policy : Policy} {e : Error} (he : (resolve policy schedule turn sessions request).result = .error e)
    (f : Failure) :
    (∃ causes, e = .unresolved request.text causes ∧ f ∈ causes) ↔
      ∃ t ∈ (resolve policy schedule turn sessions request).states, t.outcome = some (.failed f) := by
  obtain ⟨winner, failures, hresult, -, hall⟩ := resolve_concludes policy schedule turn sessions request
  rw [hresult] at he
  cases winner with
  | some w => nomatch he
  | none =>
    obtain ⟨-, hfailures⟩ := hall rfl
    simp only [RequestState.failure?_eq_some_iff] at hfailures
    rw [← hfailures]
    unfold conclusion at he
    cases failures with
    | nil =>
      obtain rfl := Except.error.inj he
      simp [notFound]
    | cons g gs =>
      obtain rfl := Except.error.inj he
      simp

/-- A state that has adopted nothing, asked for several versions, ends with the failure of its listing or with the last word on
the versions listed. -/
theorem outcome_failed_iff_of_several {t : RequestState} {e : Error}
    (he : (resolve (.standard rules) schedule turn sessions request).result = .error e)
    (ht : t ∈ (resolve (.standard rules) schedule turn sessions request).states) {matcher : Matcher}
    (hmatcher : Matcher.ofSelector request.selector = .ok matcher) (hu : matcher.isUnique = false) (f : Failure) :
    t.outcome = some (.failed f) ↔ t.listing.state = some (.failed f) ∨ ∃ versions,
      t.listing.state = some (.listed versions) ∧
        Policy.lastWord matcher rules request versions t.answer = some (.failed f) := by
  have hreq := request_of_mem ht
  have h := (candid_of_mem ht).several matcher (by rw [hreq, hmatcher]) hu (adopted?_of_error he ht) f
  rwa [hreq] at h

/-- Where the request is for one version, every failure of an access is what the state ends with. -/
theorem outcome_failed_of_one {session : Session} {t first : RequestState} {winner : Option Winner} {nearby : ListingOutcome}
    {asked : History} (hmem : t ∈ (resolve (.standard rules) schedule turn sessions request).states)
    (hacc : t.Accounted request session asked) (hkeeps : KeepsBudget request winner first nearby asked)
    (hone : ∀ matcher, Matcher.ofSelector request.selector = .ok matcher → matcher.isUnique = true)
    {a : Access} (ha : a ∈ asked) {f : Failure} (hf : a.failure? = some f) : t.outcome = some (.failed f) := by
  have hcandid := candid_of_mem hmem
  cases hl : a.isListing with
  | true => exact hcandid.listing f (hacc.listing_of_failure hkeeps ha hl hf)
  | false =>
    cases a with
    | listing tier request o => cases hl
    | lookup tier component requested o =>
      have hconcerns : Access.lookup tier component requested o ∈ asked.filter (·.concerns component.version) :=
        List.mem_filter.mpr ⟨ha, by simp [Access.concerns]⟩
      obtain ⟨o', ho', hfail⟩ := (hacc.lookups component.version).found_of_failure hconcerns hf
      exact hcandid.one (by rwa [hacc.about]) component.version o' f ho' hfail

/-- A failure of an access is reported unless the selector asks for several versions and no state ends with it: neither as the
failure of its listing, nor as the last word on the versions listed. -/
theorem failure_reported_iff {i : Nat} {session : Session} (hi : sessions[i]? = some session) {asked : History}
    (hasked : (resolve (.standard rules) schedule turn sessions request).sessions[i]? = some (session.after asked))
    {a : Access} (ha : a ∈ asked) {f : Failure} (hf : a.failure? = some f) {e : Error}
    (he : (resolve (.standard rules) schedule turn sessions request).result = .error e) :
    (∃ causes, e = .unresolved request.text causes ∧ f ∈ causes) ↔
      ∀ matcher, Matcher.ofSelector request.selector = .ok matcher → matcher.isUnique = false →
        ∃ t ∈ (resolve (.standard rules) schedule turn sessions request).states,
          t.listing.state = some (.failed f) ∨ ∃ versions, t.listing.state = some (.listed versions) ∧
            Policy.lastWord matcher rules request versions t.answer = some (.failed f) := by
  obtain ⟨t, first, asked', nearby, ht, -, hacc, hkeeps⟩ :=
    accounted_within_budget (.standard rules) schedule turn sessions request hi
  have hmem := List.mem_of_getElem? ht
  obtain rfl : asked' = asked := by
    rw [Run.sessions, List.getElem?_map, ht, Option.map_some, hacc.visit.session] at hasked
    exact Session.after_inj (Option.some.inj hasked)
  rw [mem_causes_iff he]
  by_cases hseveral : ∃ matcher, Matcher.ofSelector request.selector = .ok matcher ∧ matcher.isUnique = false
  · obtain ⟨matcher, hmatcher, hu⟩ := hseveral
    constructor
    · rintro ⟨t, ht, hout⟩ matcher' hmatcher' -
      obtain rfl := Except.ok.inj (hmatcher.symm.trans hmatcher')
      exact ⟨t, ht, (outcome_failed_iff_of_several he ht hmatcher hu f).mp hout⟩
    · intro h
      obtain ⟨t, ht, hends⟩ := h matcher hmatcher hu
      exact ⟨t, ht, (outcome_failed_iff_of_several he ht hmatcher hu f).mpr hends⟩
  · have hone : ∀ matcher, Matcher.ofSelector request.selector = .ok matcher → matcher.isUnique = true := by
      intro matcher hmatcher
      cases hu : matcher.isUnique with
      | true => rfl
      | false => exact absurd ⟨matcher, hmatcher, hu⟩ hseveral
    constructor
    · intro _ matcher hmatcher hu
      rw [hone matcher hmatcher] at hu
      cases hu
    · intro _
      exact ⟨t, hmem, outcome_failed_of_one hmem hacc hkeeps hone ha hf⟩

/-- The error that a run ended with. -/
def Run.error? (r : Run) : Option Error :=
  match r.result with
  | .ok _ => none
  | .error e => some e

theorem Run.result_of_error? {r : Run} {e : Error} (h : r.error? = some e) : r.result = .error e := by
  unfold Run.error? at h
  cases hr : r.result with
  | ok resolution =>
    rw [hr] at h
    cases h
  | error e' =>
    rw [hr] at h
    rw [Option.some.inj h]

/-- A repository that lists two versions. The descriptor of the newer one is broken, and the older one is missing. -/
def overwritten : Session where
  repository := .ofCatalogues "r"
    (((({ authoritative := true } : Catalogue).putListing ⟨"g", "n"⟩ (.versions ["1.0", "2.0"])).putEntry ⟨"g", "n", "2.0"⟩
      (.failure "broken descriptor")).putEntry ⟨"g", "n", "1.0"⟩ .missing) {}

/-- The access that meets the broken descriptor. -/
def brokenLookup : Access :=
  .lookup .nearby ⟨"g", "n", "2.0"⟩ ⟨"g", "n", "2.0"⟩
    { result := some (.failed (.access "r" .nearby "g:n:2.0" "broken descriptor"))
      authoritative := true
      attempted := ["memory://r/local/g:n:2.0"] }

/-- The broken descriptor is met, and nothing is found. -/
theorem resolve_overwritten :
    ∃ asked, (resolve (.standard {}) .inOrder 0 [overwritten] ⟨"g", "n", "[1.0,2.0]"⟩).sessions[0]? =
        some (overwritten.after asked) ∧ brokenLookup ∈ asked ∧
      (resolve (.standard {}) .inOrder 0 [overwritten] ⟨"g", "n", "[1.0,2.0]"⟩).result =
        .error (.notFound "g:n:[1.0,2.0]" ["memory://r/local/g:n", "memory://r/local/g:n:2.0", "memory://r/local/g:n:1.0"] [] []) := by
  have hget : [overwritten][0]? = some overwritten := rfl
  obtain ⟨t, asked, ht, hacc⟩ := accounted_resolve (.standard {}) .inOrder 0 [overwritten] ⟨"g", "n", "[1.0,2.0]"⟩ hget
  have hsession := Run.getElem?_sessions ht hacc
  have hmet : ((resolve (.standard {}) .inOrder 0 [overwritten] ⟨"g", "n", "[1.0,2.0]"⟩).sessions[0]?.any
      fun s => s.history.contains brokenLookup) = true := by
    rw [Policy.standard_eq]
    decide +kernel
  have hresult : (resolve (.standard {}) .inOrder 0 [overwritten] ⟨"g", "n", "[1.0,2.0]"⟩).error? = some
      (.notFound "g:n:[1.0,2.0]" ["memory://r/local/g:n", "memory://r/local/g:n:2.0", "memory://r/local/g:n:1.0"] [] []) := by
    rw [Policy.standard_eq]
    decide +kernel
  rw [hsession] at hmet
  refine ⟨asked, hsession, by simpa [Session.after, overwritten] using hmet, Run.result_of_error? hresult⟩

/-- A failure may be met and not reported. -/
theorem not_all_failures_reported :
    ¬∀ (rules : Rules) (schedule : Schedule) (turn : Nat) (sessions : List Session) (request : Request) (i : Nat)
      (session : Session) (asked : History) (a : Access) (f : Failure) (e : Error),
      sessions[i]? = some session →
      (resolve (.standard rules) schedule turn sessions request).sessions[i]? = some (session.after asked) →
      a ∈ asked → a.failure? = some f →
      (resolve (.standard rules) schedule turn sessions request).result = .error e →
      ∃ causes, e = .unresolved request.text causes ∧ f ∈ causes := by
  intro h
  obtain ⟨asked, hsession, hmet, hresult⟩ := resolve_overwritten
  obtain ⟨causes, hcauses, -⟩ := h {} .inOrder 0 [overwritten] ⟨"g", "n", "[1.0,2.0]"⟩ 0 overwritten asked brokenLookup
    (.access "r" .nearby "g:n:2.0" "broken descriptor") _ rfl hsession hmet rfl hresult
  nomatch hcauses

/-- The older version has the last word there. -/
theorem failure_reported_iff_overwritten :
    ∃ asked e, [overwritten][0]? = some overwritten ∧
      (resolve (.standard {}) .inOrder 0 [overwritten] ⟨"g", "n", "[1.0,2.0]"⟩).sessions[0]? =
        some (overwritten.after asked) ∧
      brokenLookup ∈ asked ∧ brokenLookup.failure? = some (.access "r" .nearby "g:n:2.0" "broken descriptor") ∧
      (resolve (.standard {}) .inOrder 0 [overwritten] ⟨"g", "n", "[1.0,2.0]"⟩).result = .error e ∧
      ((∃ causes, e = .unresolved "g:n:[1.0,2.0]" causes ∧ .access "r" .nearby "g:n:2.0" "broken descriptor" ∈ causes) ↔
        ∀ matcher, Matcher.ofSelector "[1.0,2.0]" = .ok matcher → matcher.isUnique = false →
          ∃ t ∈ (resolve (.standard {}) .inOrder 0 [overwritten] ⟨"g", "n", "[1.0,2.0]"⟩).states,
            t.listing.state = some (.failed (.access "r" .nearby "g:n:2.0" "broken descriptor")) ∨
              ∃ versions, t.listing.state = some (.listed versions) ∧
                Policy.lastWord matcher {} ⟨"g", "n", "[1.0,2.0]"⟩ versions t.answer =
                  some (.failed (.access "r" .nearby "g:n:2.0" "broken descriptor"))) := by
  obtain ⟨asked, hsession, hmet, hresult⟩ := resolve_overwritten
  exact ⟨asked, _, rfl, hsession, hmet, rfl, hresult, failure_reported_iff rfl hsession hmet rfl hresult⟩

end Resolver

end VersionChain
