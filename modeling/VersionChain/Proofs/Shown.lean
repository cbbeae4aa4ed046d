import VersionChain.CommandLine.Report
import VersionChain.Proofs.Standing

/-!
# What is shown of the versions of a module

A listing report asks both tiers of a repository, while a request is content with the first tier that settles it. Where the listings
of a repository depend on the module alone, the report shows the remote listing if there is one to ask for, and the nearby one
otherwise; so a request may be resolved to a version that is listed nearby and not shown.
-/

namespace VersionChain

/-- The versions that the outcome lists include the given one. -/
def Outcome.Lists (o : ListingOutcome) (version : String) : Prop :=
  ∃ versions, o.result = some (.listed versions) ∧ version ∈ versions

namespace Repository

/-- The listings of the repository depend on the tier and the module alone. -/
def ListsByModule (r : Repository) : Prop :=
  ∀ tier history history' request request', request.module = request'.module →
    (r.source tier).list history request = (r.source tier).list history' request'

/-- What a tier of the repository says about the versions of a module when it is asked first. -/
def lists (r : Repository) (tier : Tier) (module : Module) : ListingOutcome :=
  (r.source tier).list [] ⟨module.group, module.name, "latest"⟩

/-- What the nearby tier says about the versions of a module is final. -/
def SettlesNearby (r : Repository) (module : Module) : Prop :=
  (r.lists .nearby module).hasResult = true ∧ (r.lists .nearby module).authoritative = true

theorem listsByModule_ofCatalogues (name : String) (nearby remote : Catalogue) :
    (ofCatalogues name nearby remote).ListsByModule := by
  intro tier history history' request request' h
  cases tier with
  | nearby => exact congrArg (nearby.list name .nearby) h
  | remote => exact congrArg (remote.list name .remote) h

/-- Whenever such a repository is asked, it answers as it does at first. -/
theorem ListsByModule.eq_lists {r : Repository} (h : r.ListsByModule) {asked : History} (hasked : ∀ a ∈ asked, a.AnsweredBy r)
    {tier : Tier} {request : Request} {o : ListingOutcome} (ho : .listing tier request o ∈ asked) :
    o = r.lists tier request.module := by
  obtain ⟨history, rfl⟩ := hasked _ ho
  exact h tier history [] request _ rfl

end Repository

/-- The report shows the version. -/
def ListingReport.Shows (r : ListingReport) (version : String) : Prop :=
  ∃ versions, r.listing = some (.listed versions) ∧ version ∈ versions

/-- To the end, a listing probe asks the nearby tier and, unless its answer is final, the remote one. -/
theorem ListingProbe.traced_exhaust (request : Request) (v : Visit) :
    ∃ nearby more, v.Asks (.listing .nearby request nearby :: more) (exhaust { request } v).2 ∧
      Traced request (.listing .nearby request nearby :: more) (exhaust { request } v).1 ∧
      (more = [] ∧ nearby.hasResult = true ∧ nearby.authoritative = true ∨
        (∃ remote, more = [.listing .remote request remote]) ∧ ¬(nearby.hasResult = true ∧ nearby.authoritative = true)) := by
  obtain ⟨nearby, more, hasks, htraced, hmore, hgo⟩ := traced_resolve_fresh request v
  unfold exhaust
  dsimp only
  refine ⟨nearby, ?_⟩
  by_cases hfurther : (resolve { request } v).1.canGoFurther = true
  · rw [if_pos hfurther]
    obtain ⟨hknown, hpending⟩ := hgo.mp hfurther
    obtain ⟨later, hasks', htraced', hremote, -, -⟩ :=
      htraced.resolve_of_ne_fresh htraced.stage_ne_fresh (resolve { request } v).2
    obtain ⟨remote, rfl⟩ := hremote hfurther
    obtain ⟨rfl, -⟩ | ⟨-, hunknown⟩ := hmore
    · exact ⟨_, hasks.trans hasks', htraced', Or.inr ⟨⟨remote, rfl⟩, by simp [hpending]⟩⟩
    · nomatch hknown.symm.trans hunknown
  · rw [if_neg hfurther]
    rw [hgo, not_and, Bool.not_eq_false] at hfurther
    refine ⟨more, hasks, htraced, ?_⟩
    rcases hmore with ⟨rfl, hknown⟩ | ⟨hremote, hunknown⟩
    · exact Or.inl ⟨rfl, hknown, hfurther hknown⟩
    · exact Or.inr ⟨hremote, by simp [hunknown]⟩

section

variable {r : Repository} (hlists : r.ListsByModule) {request : Request}

include hlists

/-- What a listing probe has come to is what the nearby tier says, or what the remote tier says after a nearby answer that was not
final. -/
theorem ListingProbe.Traced.state_cases {asked : History} {p : ListingProbe} (h : Traced request asked p)
    (hasked : ∀ a ∈ asked, a.AnsweredBy r) {l : Listing} (hl : p.state = some l) :
    (r.lists .nearby request.module).result = some l ∨
      ¬r.SettlesNearby request.module ∧ (r.lists .remote request.module).result = some l := by
  cases h with
  | fresh => nomatch hl
  | @remoteLeft o known pending =>
    rw [(Traced.remoteLeft known pending).state_eq] at hl
    have ho := hlists.eq_lists hasked List.mem_cons_self
    exact Or.inl (ho ▸ hl)
  | @closed o known final =>
    rw [(Traced.closed known final).state_eq] at hl
    have ho := hlists.eq_lists hasked List.mem_cons_self
    exact Or.inl (ho ▸ hl)
  | @both o o' pending =>
    rw [(Traced.both pending).state_both, Option.or_eq_some_iff] at hl
    have ho : o = r.lists .nearby request.module := hlists.eq_lists hasked List.mem_cons_self
    have ho' : o' = r.lists .remote request.module := hlists.eq_lists hasked (List.mem_cons_of_mem _ List.mem_cons_self)
    subst ho ho'
    rcases hl with hremote | ⟨-, hnearby⟩
    · refine Or.inr ⟨fun ⟨hknown, hfinal⟩ => ?_, hremote⟩
      nomatch (pending hknown).symm.trans hfinal
    · exact Or.inl hnearby

/-- The report shows the nearby listing where that is final, and otherwise the remote one, if there is one. -/
theorem ListingReport.listing_ofRepository (module : Module) :
    (r.SettlesNearby module ∧ (ofRepository module r).1.listing = (r.lists .nearby module).result) ∨
      ¬r.SettlesNearby module ∧
        (ofRepository module r).1.listing = (r.lists .remote module).result.or (r.lists .nearby module).result := by
  obtain ⟨nearby, more, hasks, htraced, hmore⟩ :=
    ListingProbe.traced_exhaust ⟨module.group, module.name, "latest"⟩ { session := { repository := r } }
  have hnearby : nearby = r.lists .nearby module := hlists.eq_lists hasks.answered List.mem_cons_self
  subst hnearby
  rcases hmore with ⟨rfl, hfinal⟩ | ⟨⟨remote, rfl⟩, hpending⟩
  · exact Or.inl ⟨hfinal, htraced.state_eq⟩
  · have hremote : remote = r.lists .remote module :=
      hlists.eq_lists hasks.answered (List.mem_cons_of_mem _ List.mem_cons_self)
    subst hremote
    exact Or.inr ⟨hpending, htraced.state_both⟩

end

namespace Resolver

/-- A resolution is what the state of the repository that it names has adopted. -/
theorem exists_adoptedFrom {rules : Rules} {schedule : Schedule} {turn : Nat} {sessions : List Session} {request : Request}
    {resolution : Resolution} (h : (resolve (.standard rules) schedule turn sessions request).result = .ok resolution) :
    ∃ (i : Nat) (session : Session) (t : RequestState) (asked : History),
      sessions[i]? = some session ∧ session.repository.name = resolution.repository ∧
      t.Accounted request session asked ∧ t.AdoptedFrom rules resolution.metadata := by
  obtain ⟨winner, failures, hresult, hadopted, -⟩ := resolve_concludes (.standard rules) schedule turn sessions request
  rw [hresult] at h
  cases winner with
  | none =>
    unfold conclusion at h
    dsimp only at h
    split at h <;> nomatch h
  | some w =>
    obtain rfl := Except.ok.inj h
    obtain ⟨t, ht, hm⟩ := Option.bind_eq_some_iff.mp (hadopted w rfl)
    have hlt := (List.getElem?_eq_some_iff.mp ht).1
    rw [length_states_resolve] at hlt
    have hget : sessions[w.place]? = some sessions[w.place] := List.getElem?_eq_getElem hlt
    obtain ⟨t', asked, ht', hacc⟩ := accounted_resolve (.standard rules) schedule turn sessions request hget
    obtain rfl := Option.some.inj (ht.symm.trans ht')
    have hright := forall_states (.standard rules) schedule turn sessions request
      (P := RequestState.AdoptsRightly rules) RequestState.AdoptsRightly.congr
      (fun session _ => RequestState.adoptsRightly_start rules request session)
      (fun s turn hn hs => hs.step hn turn) t (List.mem_of_getElem? ht)
    exact ⟨w.place, _, t, asked, hget, (name_resolve (.standard rules) schedule turn sessions request hget).symm, hacc,
      hright.adopted w.metadata (RequestState.adopted?_eq_some_iff.mp hm)⟩

/-- The version that a request is resolved to is listed nearby, or remotely where the nearby listing was not final. The report on
its repository shows it unless the nearby listing was not final and the remote tier has a listing without it, or fails to list. -/
theorem resolution_shown_iff (rules : Rules) (schedule : Schedule) (turn : Nat) {sessions : List Session} (request : Request)
    (hlists : ∀ session ∈ sessions, session.repository.ListsByModule) {resolution : Resolution}
    (h : (resolve (.standard rules) schedule turn sessions request).result = .ok resolution) :
    ∃ (i : Nat) (session : Session) (v : String),
      sessions[i]? = some session ∧ session.repository.name = resolution.repository ∧
      session.repository.HandsOut request v resolution.metadata ∧
      (session.repository.AnswersAsAsked → resolution.component.version = v) ∧
      let nearby := session.repository.lists .nearby request.module
      let remote := session.repository.lists .remote request.module
      let settled := session.repository.SettlesNearby request.module
      (nearby.Lists v ∨ ¬settled ∧ remote.Lists v) ∧
      ((ListingReport.ofRepository request.module session.repository).1.Shows v ↔
        settled ∨ remote.result = none ∨ remote.Lists v) := by
  obtain ⟨i, session, t, asked, hi, hname, hacc, hfrom⟩ := exists_adoptedFrom h
  obtain ⟨versions, matcher, d, before, v, after, m, hlisting, -, hadopts, hfound, -, hmetadata⟩ := hfrom
  have hr := hlists session (List.mem_of_getElem? hi)
  have hhands : session.repository.HandsOut request v resolution.metadata := by
    obtain ⟨tier, history, hm⟩ := hacc.exists_answer (hfound v hadopts.asked) hadopts.metadata
    refine ⟨tier, history, m, hm, ?_⟩
    rw [hmetadata]
    split
    · exact Or.inl rfl
    · exact Or.inr ⟨_, rfl⟩
  have hcases := hacc.listing.state_cases hr (fun a ha => hacc.visit.answered a (List.mem_filter.mp ha).1) hlisting
  refine ⟨i, session, v, hi, hname, hhands, fun ha => congrArg Component.version (hhands.id_eq ha), ?_, ?_⟩
  · exact hcases.imp (fun hn => ⟨versions, hn, hadopts.listed⟩) fun ⟨hs, hn⟩ => ⟨hs, versions, hn, hadopts.listed⟩
  · unfold ListingReport.Shows Outcome.Lists
    rcases ListingReport.listing_ofRepository hr request.module with ⟨hsettled, hshown⟩ | ⟨hsettled, hshown⟩ <;> rw [hshown]
    · rcases hcases with hnearby | ⟨hnot, -⟩
      · exact iff_of_true ⟨versions, hnearby, hadopts.listed⟩ (Or.inl hsettled)
      · exact absurd hsettled hnot
    · cases hremote : (session.repository.lists .remote request.module).result with
      | none =>
        rcases hcases with hnearby | ⟨-, hlisted⟩
        · exact iff_of_true ⟨versions, hnearby, hadopts.listed⟩ (Or.inr (Or.inl rfl))
        · nomatch hremote.symm.trans hlisted
      | some l => simp [hsettled]

theorem listsByModule_withdrawn : ∀ session ∈ [RequestState.withdrawn], session.repository.ListsByModule := by
  intro session hs
  rw [List.mem_singleton] at hs
  rw [hs]
  exact Repository.listsByModule_ofCatalogues _ _ _

/-- A version that is listed nearby only, and not for certain, is what a request for it comes to. -/
theorem exists_resolution_withdrawn :
    ∃ resolution, (resolve (.standard {}) .inOrder 0 [RequestState.withdrawn] ⟨"g", "n", "1.0"⟩).result = .ok resolution ∧
      resolution.component.version = "1.0" := by
  have hshown : ((resolve (.standard {}) .inOrder 0 [RequestState.withdrawn] ⟨"g", "n", "1.0"⟩).result.toOption.map
      (·.component.version)) = some "1.0" := by
    rw [Policy.standard_eq]
    decide +kernel
  cases hresult : (resolve (.standard {}) .inOrder 0 [RequestState.withdrawn] ⟨"g", "n", "1.0"⟩).result with
  | error e =>
    rw [hresult] at hshown
    nomatch hshown
  | ok resolution =>
    rw [hresult] at hshown
    exact ⟨resolution, rfl, Option.some.inj hshown⟩

/-- In the report on its repository, that version is not shown. -/
theorem resolution_shown_iff_withdrawn :
    (∀ session ∈ [RequestState.withdrawn], session.repository.ListsByModule) ∧
      ∃ resolution, (resolve (.standard {}) .inOrder 0 [RequestState.withdrawn] ⟨"g", "n", "1.0"⟩).result = .ok resolution ∧
        ¬(ListingReport.ofRepository ⟨"g", "n"⟩ RequestState.withdrawn.repository).1.Shows resolution.component.version := by
  obtain ⟨resolution, hresult, hversion⟩ := exists_resolution_withdrawn
  refine ⟨listsByModule_withdrawn, resolution, hresult, ?_⟩
  obtain ⟨i, session, v, hi, -, -, hv, -, hiff⟩ :=
    resolution_shown_iff {} .inOrder 0 ⟨"g", "n", "1.0"⟩ listsByModule_withdrawn hresult
  obtain rfl := List.mem_singleton.mp (List.mem_of_getElem? hi)
  obtain rfl := hversion.symm.trans (hv RequestState.answersAsAsked_withdrawn)
  have hremote : (RequestState.withdrawn.repository.lists .remote ⟨"g", "n"⟩).result = some (.listed ["2.0"]) := by
    decide +kernel
  rw [hversion]
  intro hshows
  rcases hiff.mp hshows with ⟨-, hfinal⟩ | hnone | ⟨versions, hlisted, hmem⟩
  · exact absurd hfinal (by decide +kernel)
  · nomatch hremote.symm.trans hnone
  · obtain rfl := Listing.listed.inj (Option.some.inj (hlisted.symm.trans hremote))
    simp at hmem

/-- So a report need not show what a request may be resolved to. -/
theorem not_all_resolutions_shown :
    ¬∀ (rules : Rules) (schedule : Schedule) (turn : Nat) (sessions : List Session) (request : Request) (resolution : Resolution),
      (∀ session ∈ sessions, session.repository.ListsByModule ∧ session.repository.AnswersAsAsked) →
      (resolve (.standard rules) schedule turn sessions request).result = .ok resolution →
      ∃ (i : Nat) (session : Session), sessions[i]? = some session ∧ session.repository.name = resolution.repository ∧
        (ListingReport.ofRepository request.module session.repository).1.Shows resolution.component.version := by
  intro h
  obtain ⟨resolution, hresult, hversion⟩ := exists_resolution_withdrawn
  have hplain : ∀ session ∈ [RequestState.withdrawn],
      session.repository.ListsByModule ∧ session.repository.AnswersAsAsked := by
    intro session hs
    refine ⟨listsByModule_withdrawn session hs, ?_⟩
    rw [List.mem_singleton.mp hs]
    exact RequestState.answersAsAsked_withdrawn
  obtain ⟨i, session, hi, -, versions, hlisting, hmem⟩ := h {} .inOrder 0 _ ⟨"g", "n", "1.0"⟩ resolution hplain hresult
  obtain rfl := List.mem_singleton.mp (List.mem_of_getElem? hi)
  have hreport : (ListingReport.ofRepository ⟨"g", "n"⟩ RequestState.withdrawn.repository).1.listing =
      some (.listed ["2.0"]) := by decide +kernel
  obtain rfl := Listing.listed.inj (Option.some.inj (hlisting.symm.trans hreport))
  rw [hversion] at hmem
  simp at hmem

end Resolver

end VersionChain
