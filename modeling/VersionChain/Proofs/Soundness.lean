import VersionChain.Proofs.Budget
import VersionChain.Proofs.Plain
import VersionChain.Proofs.Walk

/-!
# A resolved request is resolved rightly

Where repositories hand out plain metadata, a resolution of the standard policy stems from one listing of the repository it names:
the version is listed there, asked for and not excluded, and no match that is newer has metadata. `Resolution.StemsFrom` says so in
terms of what the request asked that repository.
-/

namespace VersionChain

/-! ## What accesses tell about the metadata of a version -/

/-- The metadata of a version, as the accesses of a request to one repository tell it. -/
def metadataAfter (asked : History) (version : String) : LookupOutcome :=
  (asked.filter (·.concerns version)).foldl
    (fun known a =>
      match a with
      | .lookup _ _ _ o => known.absorb o
      | .listing .. => known)
    .unknown

/-- A version was asked about, in the remote tier as well where that was called for, and has no metadata. -/
def LacksMetadata (request : Request) (asked : History) (version : String) : Prop :=
  (∃ o, asked.filter (·.concerns version) =
      [.lookup .nearby (request.component version) (request.pinned version) o] ∧
    ¬FetchesRemotely o ∧ o.metadata? = none) ∨
  (∃ o o', asked.filter (·.concerns version) =
      [.lookup .nearby (request.component version) (request.pinned version) o,
        .lookup .remote (request.component version) (request.pinned version) o'] ∧
    FetchesRemotely o ∧ o'.metadata? = none)

namespace CandidateProbe

variable {component : Component} {requested : Request} {asked : History} {found : Option LookupOutcome}

/-- What is found out is what one of the accesses answered. -/
theorem Traced.exists_lookup {o : LookupOutcome} {r : Lookup} (h : Traced component requested asked (some o))
    (hr : o.result = some r) : ∃ tier o', .lookup tier component requested o' ∈ asked ∧ o'.result = some r := by
  cases h with
  | @nearby o' enough => exact ⟨.nearby, o', by simp, by simpa using hr⟩
  | @both o' o'' silent =>
    rw [Outcome.result_absorb, Outcome.result_unknown_absorb, Option.or_eq_some_iff] at hr
    rcases hr with hr | ⟨-, hr⟩
    · exact ⟨.remote, o'', by simp, hr⟩
    · exact ⟨.nearby, o', by simp, hr⟩

end CandidateProbe

theorem metadataAfter_eq {request : Request} {asked : History} {version : String} {found : Option LookupOutcome}
    (h : CandidateProbe.Traced (request.component version) (request.pinned version) (asked.filter (·.concerns version)) found) :
    metadataAfter asked version = found.getD .unknown := by
  unfold metadataAfter
  generalize asked.filter (·.concerns version) = l at h
  cases h <;> rfl

theorem lacksMetadata_of_traced {request : Request} {asked : History} {version : String} {o : LookupOutcome}
    (h : CandidateProbe.Traced (request.component version) (request.pinned version) (asked.filter (·.concerns version)) (some o))
    (ho : o.metadata? = none) : LacksMetadata request asked version := by
  unfold LacksMetadata
  generalize asked.filter (·.concerns version) = l at h
  cases h with
  | @nearby o' enough =>
    refine Or.inl ⟨o', rfl, fun hf => ?_, by simpa [LookupOutcome.metadata?] using ho⟩
    rw [(CandidateProbe.needsRemote_iff o').mpr hf] at enough
    cases enough
  | @both o' o'' silent =>
    refine Or.inr ⟨o', o'', rfl, (CandidateProbe.needsRemote_iff o').mp silent, ?_⟩
    rw [LookupOutcome.metadata?, Outcome.result_absorb] at ho
    rw [LookupOutcome.metadata?]
    cases hr : o''.result with
    | none => rfl
    | some r => simpa [hr] using ho

/-- A listing probe knows what one of the accesses answered. -/
theorem ListingProbe.Traced.exists_listing {request : Request} {asked : History} {p : ListingProbe} {r : Listing}
    (h : Traced request asked p) (hr : p.state = some r) :
    ∃ tier o, .listing tier request o ∈ asked ∧ o.result = some r := by
  unfold state at hr
  cases h with
  | fresh => nomatch hr
  | @remoteLeft o known pending => exact ⟨.nearby, o, by simp, by simpa using hr⟩
  | @closed o known final => exact ⟨.nearby, o, by simp, by simpa using hr⟩
  | @both o o' pending =>
    rw [Outcome.result_absorb, Outcome.result_unknown_absorb, Option.or_eq_some_iff] at hr
    rcases hr with hr | ⟨-, hr⟩
    · exact ⟨.remote, o', by simp, hr⟩
    · exact ⟨.nearby, o, by simp, hr⟩

/-! ## What a state has adopted -/

namespace RequestState

/-- The metadata of the state is that of a version which the standard policy adopts from its listing. -/
def AdoptedFrom (rules : Rules) (s : RequestState) (metadata : Metadata) : Prop :=
  ∃ versions matcher d before v after m,
    s.listing.state = some (.listed versions) ∧ Matcher.ofSelector s.request.selector = .ok matcher ∧
    Policy.Adopts matcher rules versions s.answer d before v after m ∧
    (∀ w ∈ d.asked, (s.found? w).isSome = true) ∧
    d.matching = ((Policy.standardSelect rules (Candidate.offer s.request versions) s.request).run
      (versions.map s.answer)).1.filterMap Verdict.matched? ∧
    metadata = if d.matching.length = 1 then m else .chosen d.matching m

/-- Under the standard policy, what a state resolved is adopted from its listing. -/
structure AdoptsRightly (rules : Rules) (s : RequestState) : Prop where
  coherent : s.Coherent
  adopted : ∀ m, s.outcome = some (.resolved m) → s.AdoptedFrom rules m

theorem adoptsRightly_start (rules : Rules) (request : Request) (session : Session) :
    (start request session).AdoptsRightly rules where
  coherent := coherent_start request session
  adopted := nofun

theorem AdoptsRightly.congr {rules : Rules} {s t : RequestState} (h : s.quiet = t.quiet) (hs : s.AdoptsRightly rules) :
    t.AdoptsRightly rules := by
  refine ⟨hs.coherent.congr h, fun m hm => ?_⟩
  have hq : ∀ u : RequestState, u.AdoptedFrom rules m ↔ u.quiet.AdoptedFrom rules m := fun _ => Iff.rfl
  have hm' : s.outcome = some (.resolved m) := (congrArg (·.outcome) h).trans hm
  rw [hq, ← h]
  exact hs.adopted m hm'

/-- What a listing that is offered leads to, if it leads to metadata, is adopted from it. -/
theorem adoptedFrom_select {rules : Rules} {s : RequestState} (hfit : s.ProbesFit) (hsel : s.selected = none)
    (hn : s.FoundNothing) (turn : Nat) {versions : List String} (hl : s.listing.state = some (.listed versions))
    {metadata : Metadata} (h : (s.select (.standard rules) turn versions).outcome = some (.resolved metadata)) :
    (s.select (.standard rules) turn versions).AdoptedFrom rules metadata := by
  obtain ⟨asked, hadv⟩ := select_advances hfit (.standard rules) turn versions
  have hmirrors := mirrors_select_standard hfit hsel rules turn versions (agreesWith_answer _)
  generalize s.select (.standard rules) turn versions = t at h hadv hmirrors ⊢
  have hmatching : (Policy.standardDigest rules s.request versions t.answer s.outcome).matching = _ :=
    Digest.matching_play t.answer versions _ { result := s.outcome }
  rw [List.nil_append] at hmatching
  rw [hmirrors.outcome, Digest.concluded] at h
  cases hd : (Policy.standardDigest rules s.request versions t.answer s.outcome).selected with
  | none =>
    have hnothing : (Policy.standardDigest rules s.request versions t.answer s.outcome).NothingResolved :=
      Digest.NothingResolved.play t.answer versions _ fun m => hn.outcome_ne_resolved m
    rw [hd] at h
    exact absurd h (hnothing metadata)
  | some m =>
    rw [hd] at h
    obtain ⟨matcher, hmatcher, before, v, after, hadopt⟩ := Policy.adopts_of_selected hd
    refine ⟨versions, matcher, _, before, v, after, m, by rw [hadv.listing, hl], by rw [hadv.request, hmatcher], hadopt,
      fun w hw => (hmirrors.found w).mpr (Or.inr hw), by rw [hadv.request, hmatching], ?_⟩
    simpa using h.symm

theorem AdoptsRightly.step {rules : Rules} {s : RequestState} (h : s.AdoptsRightly rules) (hn : s.FoundNothing) (turn : Nat) :
    (s.resolve (.standard rules) turn).2.AdoptsRightly rules := by
  refine ⟨h.coherent.step hn (.standard rules) turn, fun m hm => ?_⟩
  rcases resolve_cases (.standard rules) turn s with ⟨f, -, ht⟩ | ⟨versions, hl, ht⟩ | ⟨-, ht⟩ <;> rw [ht] at hm ⊢
  · nomatch hm
  · exact adoptedFrom_select (s := s.afterListing) h.coherent.fit (h.coherent.selected_eq_none hn) hn turn hl hm
  · exact absurd hm (hn.outcome_ne_resolved m)

end RequestState

/-! ## What a resolution stems from -/

/-- A resolution stems from a listing of versions that the accesses to its repository hold. -/
structure Resolution.StemsFrom (r : Resolution) (rules : Rules) (request : Request) (asked : History) (matcher : Matcher)
    (versions : List String) : Prop where
  listing : ∃ tier o, .listing tier request o ∈ asked ∧ o.result = some (.listed versions)
  listed : r.component.version ∈ versions
  accepted : matcher.accepts ⟨r.component.version⟩ = true
  fits : matcher.acceptsMetadata r.metadata = true
  not_rejected : ∀ p ∈ rules.reject, p.admits r.component.version = false
  /-- All versions are the admitted ones, newest first, and those before the first occurrence of the chosen one are not to be had. -/
  several : ∀ all, r.metadata.allVersions? = some all →
    all.Perm (versions.filter fun w => Policy.admits matcher rules ⟨w⟩) ∧ all.Pairwise Policy.NoOlder ∧
      ∃ before after, all = before ++ r.component.version :: after ∧ r.component.version ∉ before ∧
        ∀ w ∈ before, LacksMetadata request asked w
  /-- Without a list of all versions, the policy reports one match in the listing. -/
  one : r.metadata.allVersions? = none →
    (((Policy.standardSelect rules (Candidate.offer request versions) request).run
      (versions.map (metadataAfter asked))).1.filterMap Verdict.matched?).length = 1

theorem LookupOutcome.metadata?_eq_some_iff {o : LookupOutcome} {m : Metadata} :
    o.metadata? = some m ↔ o.result = some (.resolved m) := by
  unfold metadata?
  rcases o.result with _ | _ | _ | _ <;> simp [Lookup.metadata?]

/-- A matcher judges metadata by its facts, wrapped or not. -/
theorem acceptsMetadata_congr (matcher : Matcher) {m m' : Metadata} (h : m.base = m'.base) :
    matcher.acceptsMetadata m = matcher.acceptsMetadata m' := by
  unfold Matcher.acceptsMetadata Metadata.statusScheme Metadata.status
  rw [h]

namespace RequestState

variable {rules : Rules} {request : Request} {session : Session} {asked : History} {t : RequestState}

theorem Accounted.answer_eq (h : t.Accounted request session asked) : t.answer = metadataAfter asked := by
  funext v
  exact (metadataAfter_eq (h.lookups v)).symm

/-- The metadata that a state found out for a version is what the repository answered when it was asked for that version. -/
theorem Accounted.exists_answer (h : t.Accounted request session asked) {v : String} (hv : (t.found? v).isSome = true)
    {m : Metadata} (hm : (t.answer v).metadata? = some m) :
    ∃ tier history, ((session.repository.source tier).lookup history (request.component v) (request.pinned v)).result =
      some (.resolved m) := by
  obtain ⟨o, ho⟩ := Option.isSome_iff_exists.mp hv
  have htr := h.lookups v
  rw [answer, ho, Option.getD_some, LookupOutcome.metadata?_eq_some_iff] at hm
  rw [ho] at htr
  obtain ⟨tier, o', hmem, hr⟩ := htr.exists_lookup hm
  obtain ⟨history, hanswer⟩ := h.visit.answered _ (List.mem_filter.mp hmem).1
  exact ⟨tier, history, by rw [← hr, ← hanswer]⟩

/-- What a plain repository handed out for a version is of that version. -/
theorem Accounted.version_eq (h : t.Accounted request session asked) (hplain : session.repository.IsPlain) {v : String}
    (hv : (t.found? v).isSome = true) {m : Metadata} (hm : (t.answer v).metadata? = some m) :
    m.id.version = v ∧ m.allVersions? = none := by
  obtain ⟨tier, history, hr⟩ := h.exists_answer hv hm
  obtain ⟨f, rfl, hid⟩ := hplain tier history _ _ m hr
  refine ⟨?_, rfl⟩
  have hf : (Metadata.facts f).id = f.id := rfl
  rw [hf, hid]
  rfl

/-- What a state found to have no metadata has none by the accesses it accounts for. -/
theorem Accounted.lacksMetadata (h : t.Accounted request session asked) {v : String} (hv : (t.found? v).isSome = true)
    (hnone : (t.answer v).metadata? = none) : LacksMetadata request asked v := by
  obtain ⟨o, ho⟩ := Option.isSome_iff_exists.mp hv
  have htr := h.lookups v
  rw [ho] at htr
  rw [answer, ho, Option.getD_some] at hnone
  exact lacksMetadata_of_traced htr hnone

/-- What a state has adopted stems from the accesses it accounts for. -/
theorem AdoptedFrom.stemsFrom {metadata : Metadata} (h : t.AdoptedFrom rules metadata)
    (hacc : t.Accounted request session asked) (hplain : session.repository.IsPlain) (name : String) :
    ∃ matcher versions, Matcher.ofSelector request.selector = .ok matcher ∧
      (Resolution.mk name metadata).StemsFrom rules request asked matcher versions := by
  obtain ⟨versions, matcher, d, before, v, after, m, hlisting, hmatcher, hadopts, hfound, hmatching, rfl⟩ := h
  have hreq := hacc.about
  rw [hreq] at hmatcher hmatching
  rw [hacc.answer_eq] at hmatching
  obtain ⟨hver, hall⟩ := hacc.version_eq hplain (hfound v hadopts.asked) hadopts.metadata
  refine ⟨matcher, versions, hmatcher, ?_⟩
  have hbase : (if d.matching.length = 1 then m else .chosen d.matching m).base = m.base := by
    split <;> rfl
  have hcomponent : (Resolution.mk name (if d.matching.length = 1 then m else .chosen d.matching m)).component.version = v := by
    rw [← hver]
    exact congrArg (fun f : Facts => f.id.version) hbase
  obtain ⟨haccepted, hrejected⟩ : matcher.accepts ⟨v⟩ = true ∧ rules.rejects ⟨v⟩ = false := by
    simpa [Policy.admits] using hadopts.admitted
  refine ⟨?_, by rw [hcomponent]; exact hadopts.listed, by rw [hcomponent]; exact haccepted, ?_, ?_, ?_, ?_⟩
  · obtain ⟨tier, o, hmem, ho⟩ := hacc.listing.exists_listing hlisting
    exact ⟨tier, o, (List.mem_filter.mp hmem).1, ho⟩
  · rw [acceptsMetadata_congr matcher hbase]
    exact hadopts.fits
  · rw [hcomponent]
    simpa [Rules.rejects] using hrejected
  · intro all hsome
    by_cases hlen : d.matching.length = 1
    · rw [if_pos hlen, hall] at hsome
      cases hsome
    · rw [if_neg hlen] at hsome
      obtain rfl := Option.some.inj hsome
      have hu : matcher.isUnique = false := by
        cases hu : matcher.isUnique with
        | false => rfl
        | true =>
          rw [hadopts.one hu] at hlen
          exact absurd rfl hlen
      obtain ⟨hperm, hsorted⟩ := hadopts.several hu
      rw [hcomponent]
      refine ⟨hperm, hsorted, before, after, hadopts.matching, fun hv => ?_, fun w hw => ?_⟩
      · exact Option.some_ne_none m (hadopts.metadata.symm.trans (hadopts.before_unavailable v hv).2)
      · obtain ⟨hasked, hnone⟩ := hadopts.before_unavailable w hw
        exact hacc.lacksMetadata (hfound w hasked) hnone
  · intro hnone
    by_cases hlen : d.matching.length = 1
    · rw [← hmatching, hlen]
    · rw [if_neg hlen] at hnone
      cases hnone

end RequestState

namespace Resolver

/-- A resolution of the standard policy stems from a listing of the repository that it names, where repositories are plain. -/
theorem resolution_stems (rules : Rules) (schedule : Schedule) (turn : Nat) (sessions : List Session) (request : Request)
    (hplain : ∀ session ∈ sessions, session.repository.IsPlain) {resolution : Resolution}
    (h : (resolve (.standard rules) schedule turn sessions request).result = .ok resolution) :
    ∃ (i : Nat) (session : Session) (asked : History) (matcher : Matcher) (versions : List String),
      sessions[i]? = some session ∧ session.repository.name = resolution.repository ∧
      (resolve (.standard rules) schedule turn sessions request).sessions[i]? = some (session.after asked) ∧
      Matcher.ofSelector request.selector = .ok matcher ∧
      resolution.StemsFrom rules request asked matcher versions := by
  obtain ⟨winner, failures, hresult, hadopted, -⟩ := resolve_concludes (.standard rules) schedule turn sessions request
  rw [hresult] at h
  cases winner with
  | none =>
    unfold conclusion at h
    dsimp only at h
    split at h <;> nomatch h
  | some w =>
    obtain rfl := Except.ok.inj h
    obtain ⟨t, ht, hm⟩ := Option.bind_eq_some_iff.mp (hadopted w rfl)
    have hlt := (List.getElem?_eq_some_iff.mp ht).1
    rw [length_states_resolve] at hlt
    have hget : sessions[w.place]? = some sessions[w.place] := List.getElem?_eq_getElem hlt
    obtain ⟨t', asked, ht', hacc⟩ := accounted_resolve (.standard rules) schedule turn sessions request hget
    obtain rfl := Option.some.inj (ht.symm.trans ht')
    have hright := forall_states (.standard rules) schedule turn sessions request
      (P := RequestState.AdoptsRightly rules) RequestState.AdoptsRightly.congr
      (fun session _ => RequestState.adoptsRightly_start rules request session)
      (fun s turn hn hs => hs.step hn turn) t (List.mem_of_getElem? ht)
    have hfrom := hright.adopted w.metadata (RequestState.adopted?_eq_some_iff.mp hm)
    obtain ⟨matcher, versions, hmatcher, hstems⟩ := hfrom.stemsFrom hacc (hplain _ (List.getElem_mem hlt)) _
    refine ⟨w.place, _, asked, matcher, versions, hget, ?_, ?_, hmatcher, hstems⟩
    · exact (name_resolve (.standard rules) schedule turn sessions request hget).symm
    · rw [Run.sessions, List.getElem?_map, ht, Option.map_some, hacc.visit.session]

/-- A repository of four versions, the second newest of which is missing after all. -/
def partlyMissing : Session where
  repository := .ofCatalogues "r"
    ((({ authoritative := true } : Catalogue).putModules ⟨"g", "n"⟩ ["1.0", "2.0", "3.0", "4.0"]).putEntry
      ⟨"g", "n", "3.0"⟩ .missing) {}

/-- Rules that exclude every version `1…`. -/
def noOnes : Rules := ⟨[⟨[.literal '1', .anyText]⟩]⟩

theorem isPlain_partlyMissing : partlyMissing.repository.IsPlain :=
  Repository.isPlain_ofCatalogues (((Catalogue.filed_empty true).putModules _ _).putEntry (by simp))
    (Catalogue.filed_empty false) "r"

theorem resolution_stems_partlyMissing :
    (∀ session ∈ [partlyMissing], session.repository.IsPlain) ∧
      ∃ resolution,
        (resolve (.standard noOnes) .inOrder 0 [partlyMissing] ⟨"g", "n", "[1.0,4.0)"⟩).result = .ok resolution ∧
        (resolution.component.version, resolution.metadata.allVersions?) = ("2.0", some ["3.0", "2.0"]) ∧
        ∃ (i : Nat) (session : Session) (asked : History) (matcher : Matcher) (versions : List String),
          [partlyMissing][i]? = some session ∧ session.repository.name = resolution.repository ∧
          (resolve (.standard noOnes) .inOrder 0 [partlyMissing] ⟨"g", "n", "[1.0,4.0)"⟩).sessions[i]? =
            some (session.after asked) ∧
          Matcher.ofSelector "[1.0,4.0)" = .ok matcher ∧
          resolution.StemsFrom noOnes ⟨"g", "n", "[1.0,4.0)"⟩ asked matcher versions := by
  have hplain : ∀ session ∈ [partlyMissing], session.repository.IsPlain := by
    intro session hs
    rw [List.mem_singleton] at hs
    rw [hs]
    exact isPlain_partlyMissing
  have hshown : ((resolve (.standard noOnes) .inOrder 0 [partlyMissing] ⟨"g", "n", "[1.0,4.0)"⟩).result.toOption.map
      fun r => (r.component.version, r.metadata.allVersions?)) = some ("2.0", some ["3.0", "2.0"]) := by
    rw [Policy.standard_eq]
    decide +kernel
  refine ⟨hplain, ?_⟩
  cases hresult : (resolve (.standard noOnes) .inOrder 0 [partlyMissing] ⟨"g", "n", "[1.0,4.0)"⟩).result with
  | error e =>
    rw [hresult] at hshown
    nomatch hshown
  | ok resolution =>
    rw [hresult] at hshown
    exact ⟨resolution, rfl, Option.some.inj hshown, resolution_stems _ _ _ _ _ hplain hresult⟩

end Resolver

end VersionChain
