import Mathlib.Data.List.Forall2
import VersionChain.Proofs.Passes
import VersionChain.Proofs.Verdicts
import VersionChain.Repository.Catalogue

/-!
# The order of a listing

A tier may list the versions of a module in any order, any of them more than once. The standard policy sorts what it is offered by
an order that tells apart any two texts, so nothing that a request does or reports depends on the order of a listing. The relations
here hold between two requests whose tiers list the same versions in different orders; every step keeps them.
-/

namespace VersionChain

/-! ## Repositories that list in another order -/

/-- The same versions in another order, or the same failure. -/
inductive Listing.Relisted : Listing → Listing → Prop where
  | listed {versions versions' : List String} (perm : versions.Perm versions') : Relisted (.listed versions) (.listed versions')
  | failed (f : Failure) : Relisted (.failed f) (.failed f)

/-- Answers that differ at most in the order of a listing. -/
structure ListingOutcome.Relisted (o o' : ListingOutcome) : Prop where
  result : Option.Rel Listing.Relisted o.result o'.result
  authoritative : o.authoritative = o'.authoritative
  attempted : o.attempted = o'.attempted

/-- The same question, and answers that differ at most in the order of a listing. -/
inductive Access.Relisted : Access → Access → Prop where
  | listing (tier : Tier) (request : Request) {o o' : ListingOutcome} (answer : ListingOutcome.Relisted o o') :
      Relisted (.listing tier request o) (.listing tier request o')
  | lookup (tier : Tier) (component : Component) (requested : Request) (o : LookupOutcome) :
      Relisted (.lookup tier component requested o) (.lookup tier component requested o)

/-- Tiers that list the same in different orders, and otherwise are alike. -/
structure Source.Relisted (source source' : Source) : Prop where
  list : ∀ {h h' : History}, List.Forall₂ Access.Relisted h h' → ∀ request,
    ListingOutcome.Relisted (source.list h request) (source'.list h' request)
  lookup : ∀ {h h' : History}, List.Forall₂ Access.Relisted h h' → ∀ component requested,
    source.lookup h component requested = source'.lookup h' component requested
  listEvents : source.listEvents = source'.listEvents
  lookupEvents : source.lookupEvents = source'.lookupEvents

/-- Repositories whose tiers list the same in different orders. -/
structure Repository.Relisted (r r' : Repository) : Prop where
  name : r.name = r'.name
  source : ∀ tier, (r.source tier).Relisted (r'.source tier)

/-- Repositories that list in different orders, and have done so in the past. -/
structure Session.Relisted (s s' : Session) : Prop where
  repository : s.repository.Relisted s'.repository
  history : List.Forall₂ Access.Relisted s.history s'.history

theorem ListingOutcome.Relisted.refl (o : ListingOutcome) : ListingOutcome.Relisted o o := by
  refine ⟨?_, rfl, rfl⟩
  rcases o.result with _ | _ | _
  · exact .none
  · exact .some (.listed (.refl _))
  · exact .some (.failed _)

/-- A tier that answers alike whatever it was asked before lists as it lists. -/
theorem Source.Relisted.refl_of_static {source : Source} (hlist : ∀ h h' request, source.list h request = source.list h' request)
    (hlookup : ∀ h h' component requested, source.lookup h component requested = source.lookup h' component requested) :
    source.Relisted source where
  list {h h'} _ request := by
    rw [hlist h h']
    exact .refl _
  lookup _ := hlookup _ _
  listEvents := rfl
  lookupEvents := rfl

/-- Catalogues that list a module in two orders. -/
theorem Catalogue.relisted_putListing (c : Catalogue) (module : Module) {versions versions' : List String}
    (h : versions.Perm versions') (name : String) (tier : Tier) :
    ((c.putListing module (.versions versions)).source name tier).Relisted
      ((c.putListing module (.versions versions')).source name tier) where
  list _ request := by
    unfold source list putListing
    dsimp only
    rw [List.lookup_cons, List.lookup_cons]
    by_cases hm : (request.module == module) = true
    · rw [hm]
      exact ⟨.some (.listed h), rfl, rfl⟩
    · rw [Bool.eq_false_iff.mpr hm]
      exact .refl _
  lookup _ _ _ := rfl
  listEvents := rfl
  lookupEvents := rfl

/-- What a tier was asked about metadata, with its answers. -/
def Session.lookups (s : Session) (tier : Tier) : List Access := (s.accesses tier).filter (!·.isListing)

theorem Access.filter_lookups_of_relisted {h h' : History} (hr : List.Forall₂ Access.Relisted h h') (tier : Tier) :
    (h.filter (·.tier == tier)).filter (!·.isListing) = (h'.filter (·.tier == tier)).filter (!·.isListing) := by
  rw [List.filter_filter, List.filter_filter]
  induction hr with
  | nil => rfl
  | cons hr _ ih =>
    cases hr with
    | listing tier' request answer => exact ih
    | lookup tier' component requested o => rw [List.filter_cons, List.filter_cons, ih]

/-- However the listings were ordered, the lookups were the same. -/
theorem Session.Relisted.lookups_eq {s s' : Session} (h : s.Relisted s') (tier : Tier) : s.lookups tier = s'.lookups tier :=
  Access.filter_lookups_of_relisted h.history tier

/-! ## Outcomes and visits -/

namespace ListingOutcome.Relisted

variable {o o' p p' : ListingOutcome}

theorem hasResult (h : Relisted o o') : o.hasResult = o'.hasResult := by
  have hr := h.result
  unfold Outcome.hasResult
  generalize o.result = r at hr
  generalize o'.result = r' at hr
  cases hr <;> rfl

theorem absorb (h : Relisted o o') (h' : Relisted p p') : Relisted (o.absorb p) (o'.absorb p') := by
  unfold Outcome.absorb
  rw [h'.hasResult, h.authoritative, h'.authoritative, h.attempted, h'.attempted]
  refine ⟨?_, rfl, rfl⟩
  dsimp only
  split
  · exact h'.result
  · exact h.result

end ListingOutcome.Relisted

/-- Visits to repositories that list in different orders, with the same metadata and the same told so far. -/
structure Visit.Relisted (v v' : Visit) : Prop where
  session : v.session.Relisted v'.session
  attempts : v.attempts = v'.attempts
  log : v.log = v'.log

namespace Visit.Relisted

variable {v v' : Visit}

theorem name (h : v.Relisted v') : v.name = v'.name := h.session.repository.name

theorem tell (h : v.Relisted v') (e : Event) : (v.tell e).Relisted (v'.tell e) :=
  ⟨h.session, h.attempts, by rw [Visit.tell, Visit.tell, h.log]⟩

theorem list (h : v.Relisted v') (tier : Tier) (request : Request) :
    ListingOutcome.Relisted (v.list tier request).1 (v'.list tier request).1 ∧
      (v.list tier request).2.Relisted (v'.list tier request).2 := by
  have hanswer := (h.session.repository.source tier).list h.session.history request
  refine ⟨hanswer, ⟨h.session.repository, ?_⟩, h.attempts, ?_⟩
  · exact List.rel_append h.session.history (.cons (.listing tier request hanswer) .nil)
  · unfold Visit.list
    dsimp only
    rw [h.log, h.name, (h.session.repository.source tier).listEvents]

theorem lookup (h : v.Relisted v') (tier : Tier) (component : Component) (requested : Request) :
    (v.lookup tier component requested).1 = (v'.lookup tier component requested).1 ∧
      (v.lookup tier component requested).2.Relisted (v'.lookup tier component requested).2 := by
  have hanswer := (h.session.repository.source tier).lookup h.session.history component requested
  unfold Visit.lookup
  dsimp only
  rw [hanswer]
  refine ⟨rfl, ⟨h.session.repository, ?_⟩, ?_, ?_⟩
  · exact List.rel_append h.session.history (.cons (.lookup tier component requested _) .nil)
  · dsimp only
    rw [h.attempts]
  · dsimp only
    rw [h.log, h.name, (h.session.repository.source tier).lookupEvents]

end Visit.Relisted

/-! ## Probes -/

/-- Listing probes that have come equally far. -/
structure ListingProbe.Relisted (p p' : ListingProbe) : Prop where
  request : p.request = p'.request
  stage : p.stage = p'.stage
  outcome : ListingOutcome.Relisted p.outcome p'.outcome

namespace ListingProbe.Relisted

variable {p p' : ListingProbe} {v v' : Visit}

theorem ask (h : p.Relisted p') (hv : v.Relisted v') (tier : Tier) :
    (p.ask tier v).1.Relisted (p'.ask tier v').1 ∧ (p.ask tier v).2.Relisted (p'.ask tier v').2 := by
  unfold ListingProbe.ask
  dsimp only
  rw [h.request]
  obtain ⟨ho, hv'⟩ := hv.list tier p'.request
  exact ⟨⟨rfl, h.stage, h.outcome.absorb ho⟩, hv'⟩

theorem askRemote (h : p.Relisted p') (hv : v.Relisted v') :
    (p.askRemote v).1.Relisted (p'.askRemote v').1 ∧ (p.askRemote v).2.Relisted (p'.askRemote v').2 := by
  have h' : ListingProbe.Relisted { p with stage := .settled } { p' with stage := .settled } := ⟨h.request, rfl, h.outcome⟩
  exact h'.ask hv .remote

theorem resolve (h : p.Relisted p') (hv : v.Relisted v') :
    (p.resolve v).1.Relisted (p'.resolve v').1 ∧ (p.resolve v).2.Relisted (p'.resolve v').2 := by
  unfold ListingProbe.resolve
  rw [h.stage]
  cases p'.stage with
  | fresh =>
    obtain ⟨hp, hv'⟩ := h.ask hv .nearby
    dsimp only
    rw [hp.outcome.hasResult, hp.outcome.authoritative]
    split
    · exact ⟨⟨hp.request, rfl, hp.outcome⟩, hv'⟩
    · exact hp.askRemote hv'
  | remoteLeft => exact h.askRemote hv
  | settled => exact ⟨h, hv⟩

end ListingProbe.Relisted

namespace CandidateProbe

variable {v v' : Visit}

theorem search_of_relisted (hv : v.Relisted v') (p : CandidateProbe) :
    (p.search v).1 = (p.search v').1 ∧ (p.search v).2.Relisted (p.search v').2 := by
  obtain ⟨ho, hv1⟩ := hv.lookup .nearby p.component p.requested
  obtain ⟨ho', hv2⟩ := hv1.lookup .remote p.component p.requested
  unfold search
  dsimp only
  rw [ho]
  split
  · exact ⟨by rw [ho'], hv2⟩
  · exact ⟨rfl, hv1⟩

theorem resolve_of_relisted (hv : v.Relisted v') (p : CandidateProbe) :
    (p.resolve v).1 = (p.resolve v').1 ∧ (p.resolve v).2.1 = (p.resolve v').2.1 ∧
      (p.resolve v).2.2.Relisted (p.resolve v').2.2 := by
  obtain ⟨ho, hv'⟩ := p.search_of_relisted hv
  unfold resolve
  cases p.found with
  | some o => exact ⟨rfl, rfl, hv⟩
  | none =>
    dsimp only
    rw [ho]
    exact ⟨rfl, rfl, hv'⟩

end CandidateProbe

/-! ## States -/

/-- States of a request that differ at most in the order of what is listed, and of the probes for it. -/
structure RequestState.Relisted (s s' : RequestState) : Prop where
  request : s.request = s'.request
  visit : s.visit.Relisted s'.visit
  listing : s.listing.Relisted s'.listing
  probes : ∀ v, s.probe? v = s'.probe? v
  matching : s.matching = s'.matching
  unmatched : s.unmatched = s'.unmatched
  rejected : s.rejected = s'.rejected
  selected : s.selected = s'.selected
  resolved : s.resolved = s'.resolved

namespace RequestState

theorem probe?_foldl_withProbe (versions : List String) (w : String) :
    ∀ s : RequestState, (versions.foldl withProbe s).probe? w =
      (s.probe? w).or (if w ∈ versions then some (.new s.request w) else none) := by
  induction versions with
  | nil => intro s; simp
  | cons v versions ih =>
    intro s
    rw [List.foldl_cons, ih, probe?_withProbe, request_withProbe, Option.or_assoc]
    by_cases hw : w = v
    · subst hw
      simp
    · simp [hw]

namespace Relisted

variable {s s' : RequestState}

theorem start {session session' : Session} (h : session.Relisted session') (request : Request) :
    (RequestState.start request session).Relisted (.start request session') where
  request := rfl
  visit := ⟨h, rfl, rfl⟩
  listing := ⟨rfl, rfl, .none, rfl, rfl⟩
  probes _ := rfl
  matching := rfl
  unmatched := rfl
  rejected := rfl
  selected := rfl
  resolved := rfl

theorem consult (h : s.Relisted s') (v : String) :
    (s.consult v).1 = (s'.consult v).1 ∧ (s.consult v).2.Relisted (s'.consult v).2 := by
  have hprobe : s.probeFor v = s'.probeFor v := by rw [probeFor, probeFor, h.probes, h.request]
  obtain ⟨ho, hp, hv⟩ := (s'.probeFor v).resolve_of_relisted h.visit
  have hprobes : ∀ w, (s.consult v).2.probe? w = (s'.consult v).2.probe? w := by
    have hconsult : ∀ (t : RequestState) w, (t.consult v).2.probe? w =
        ((t.withProbe v).putProbe ((t.probeFor v).resolve t.visit).2.1).probe? w := fun _ _ => rfl
    intro w
    rw [hconsult, hconsult, probe?_putProbe, probe?_putProbe, probe?_withProbe, probe?_withProbe, hprobe, hp, h.probes, h.request]
  refine ⟨by rw [consult_eq, consult_eq, hprobe]; exact ho, ?_⟩
  have hvisit : (s.consult v).2.visit.Relisted (s'.consult v).2.visit := by
    rw [consult_eq, consult_eq, hprobe]
    exact hv
  generalize hr : (s.consult v).2 = r at hprobes hvisit
  generalize hr' : (s'.consult v).2 = r' at hprobes hvisit
  have hframe := consult_frame s v
  have hframe' := consult_frame s' v
  rw [hr] at hframe
  rw [hr'] at hframe'
  rw [hframe, hframe'] at hprobes ⊢
  exact { h with visit := hvisit, probes := hprobes }

theorem noticing (h : s.Relisted s') (c : Component) : (s.noticing c).Relisted (s'.noticing c) := by
  unfold RequestState.noticing
  rw [h.probes, h.visit.name]
  split
  · exact h
  · exact { h with visit := h.visit.tell _ }

theorem taken (c : Component) {r r' : LookupOutcome × RequestState} (ho : r.1 = r'.1) (h : r.2.Relisted r'.2) :
    (RequestState.taken c r).Relisted (RequestState.taken c r') := by
  unfold RequestState.taken
  dsimp only
  rw [ho, h.resolved, h.visit.name]
  split
  · exact { h with selected := rfl, resolved := rfl }
  · exact { h with selected := rfl, resolved := rfl, visit := h.visit.tell _ }

theorem adopt (h : s.Relisted s') (c : Component) : (s.adopt c).Relisted (s'.adopt c) := by
  obtain ⟨ho, h'⟩ := (h.noticing c).consult c.version
  rw [adopt_eq, adopt_eq]
  exact taken c ho h'

theorem apply (h : s.Relisted s') (verdict : Verdict) : (s.apply verdict).Relisted (s'.apply verdict) := by
  cases verdict with
  | isMatch c =>
    have h' : RequestState.Relisted { s with matching := s.matching ++ [c.version] }
        { s' with matching := s'.matching ++ [c.version] } := { h with matching := by rw [h.matching] }
    unfold RequestState.apply
    dsimp only
    by_cases hs : s.selected.isSome = true
    · rw [if_pos hs, if_pos (by rwa [← h.selected])]
      exact h'
    · rw [if_neg hs, if_neg (by rwa [← h.selected])]
      exact h'.adopt c
  | notMatched v => exact { h with unmatched := congrArg (Text.insertNew · v) h.unmatched }
  | rejected v => exact { h with rejected := congrArg (Text.insertNew · v) h.rejected }
  | noMatch => exact { h with resolved := by rw [RequestState.apply, RequestState.apply, h.resolved] }
  | failed f => exact { h with resolved := by rw [RequestState.apply, RequestState.apply, h.resolved] }

theorem follow_goOn {offered offered' : List String} (h : s.Relisted s') (matcher : Matcher) (found : Bool) (verdict : Verdict)
    {rest rest' : Bool → Selection}
    (hrest : ∀ (found : Bool) {s s' : RequestState}, s.Relisted s' →
      (follow offered (rest found) s).Relisted (follow offered' (rest' found) s')) :
    (follow offered (Policy.goOn matcher found verdict rest) s).Relisted
      (follow offered' (Policy.goOn matcher found verdict rest') s') := by
  have h' := h.apply verdict
  unfold Policy.goOn follow
  cases verdict with
  | isMatch c =>
    dsimp only
    split
    · exact h'
    · exact hrest true h'
  | notMatched v => exact hrest found h'
  | rejected v => exact hrest found h'
  | noMatch => exact hrest found h'
  | failed f => exact h'

/-- Along a walk through the same components, wherever they are offered, states are kept alike. -/
theorem follow_walk (matcher : Matcher) (rules : Rules) {offered offered' : List String} {cs : List Candidate} :
    ∀ {cs' : List Candidate}, cs.map (·.component) = cs'.map (·.component) → Policy.Placed offered cs →
      Policy.Placed offered' cs' → ∀ (found : Bool) {s s' : RequestState}, s.Relisted s' →
        (follow offered (Policy.walk matcher rules found cs) s).Relisted
          (follow offered' (Policy.walk matcher rules found cs') s') := by
  induction cs with
  | nil =>
    intro cs' hc _ _ found s s' h
    obtain rfl := List.map_eq_nil_iff.mp hc.symm
    cases found
    · exact h.apply .noMatch
    · exact h
  | cons c cs ih =>
    intro cs' hc hp hp' found s s' h
    obtain ⟨c', cs', rfl, hcomponent, hmap⟩ := List.map_eq_cons_iff.mp hc.symm
    have hversion : c'.version = c.version := by rw [Candidate.version, hcomponent, Candidate.version]
    have hruled : Policy.ruled rules c' = Policy.ruled rules c := by rw [Policy.ruled, hcomponent, hversion, Policy.ruled]
    have hrest : ∀ (found : Bool) {s s' : RequestState}, s.Relisted s' →
        (follow offered (Policy.walk matcher rules found cs) s).Relisted
          (follow offered' (Policy.walk matcher rules found cs') s') := fun found _ _ hs =>
      ih hmap.symm (fun x hx => hp x (List.mem_cons_of_mem _ hx)) (fun x hx => hp' x (List.mem_cons_of_mem _ hx)) found hs
    unfold Policy.walk
    dsimp only
    rw [hversion, hruled]
    split
    · exact h.follow_goOn matcher found _ hrest
    · split
      · unfold follow
        rw [hp c List.mem_cons_self, hp' c' List.mem_cons_self, hcomponent]
        obtain ⟨ho, h'⟩ := h.consult c.component.version
        have hinspected : ∀ o, Policy.inspected matcher rules c' o = Policy.inspected matcher rules c o := fun o => by
          rw [Policy.inspected, hruled, hversion, Policy.inspected]
        dsimp only
        rw [ho, hinspected]
        exact h'.follow_goOn matcher found _ hrest
      · exact h.follow_goOn matcher found _ hrest

theorem conclude (h : s.Relisted s') : s.conclude.Relisted s'.conclude := by
  unfold RequestState.conclude
  rw [h.selected, h.matching]
  cases s'.selected with
  | none => exact h
  | some m => exact { h with matching := rfl, selected := rfl, resolved := by dsimp only; rw [h.resolved] }

/-- Offered to the standard policy, listings in different orders come to the same. -/
theorem select (h : s.Relisted s') (rules : Rules) (turn : Nat) {versions versions' : List String}
    (hp : versions.Perm versions') :
    (s.select (.standard rules) turn versions).Relisted (s'.select (.standard rules) turn versions') := by
  have h1 : (versions.foldl withProbe { s with matching := [] }).Relisted
      (versions'.foldl withProbe { s' with matching := [] }) := by
    have hprobes : ∀ w, (versions.foldl withProbe { s with matching := [] }).probe? w =
        (versions'.foldl withProbe { s' with matching := [] }).probe? w := fun w => by
      rw [probe?_foldl_withProbe, probe?_foldl_withProbe]
      simp only [hp.mem_iff, h.request]
      congr 1
      exact h.probes w
    rw [foldl_withProbe_frame versions, foldl_withProbe_frame versions'] at hprobes ⊢
    exact { h with matching := rfl, probes := hprobes }
  unfold RequestState.select
  dsimp only
  generalize versions.foldl withProbe { s with matching := [] } = t at h1
  generalize versions'.foldl withProbe { s' with matching := [] } = t' at h1
  refine conclude ?_
  have hstandard : (Policy.standard rules).select turn = Policy.standardSelect rules := rfl
  rw [hstandard, h1.request]
  unfold Policy.standardSelect
  cases Matcher.ofSelector t'.request.selector with
  | error e => exact h1.apply (.failed (.selection t'.request.text e.message))
  | ok matcher =>
    have hcomponents : (Candidate.newestFirst (Candidate.offer t'.request versions)).map (·.component) =
        (Candidate.newestFirst (Candidate.offer t'.request versions')).map (·.component) := by
      rw [Policy.map_component_newestFirst, Policy.map_component_newestFirst, Policy.newestFirst_congr hp]
    exact follow_walk matcher rules hcomponents (Policy.placed_newestFirst _ _) (Policy.placed_newestFirst _ _) false h1

/-- States that are alike go on alike. -/
theorem resolve (h : s.Relisted s') (rules : Rules) (turn : Nat) :
    (s.resolve (.standard rules) turn).1 = (s'.resolve (.standard rules) turn).1 ∧
      (s.resolve (.standard rules) turn).2.Relisted (s'.resolve (.standard rules) turn).2 := by
  obtain ⟨hl, hv⟩ := h.listing.resolve h.visit
  have h1 : s.afterListing.Relisted s'.afterListing := { h with listing := hl, visit := hv }
  have hstate : Option.Rel Listing.Relisted s.afterListing.listing.state s'.afterListing.listing.state := hl.outcome.result
  rw [resolve_eq, resolve_eq]
  generalize s.afterListing.listing.state = r at hstate
  generalize s'.afterListing.listing.state = r' at hstate
  cases hstate with
  | none => exact ⟨rfl, h1⟩
  | some hr =>
    cases hr with
    | listed hp => exact ⟨rfl, h1.select rules turn hp⟩
    | failed f => exact ⟨rfl, h1.apply (.failed f)⟩

theorem outcome (h : s.Relisted s') : s.outcome = s'.outcome := congrArg Outcome.result h.resolved

theorem canGoFurther (h : s.Relisted s') : s.canGoFurther = s'.canGoFurther := congrArg (· != ListingStage.settled) h.listing.stage

theorem attempted (h : s.Relisted s') : s.attempted = s'.attempted := by
  unfold RequestState.attempted ListingProbe.attempted
  rw [h.listing.outcome.attempted, h.visit.attempts]

end Relisted

end RequestState

/-! ## Requests -/

section

variable {α β : Type} {R : α → α → Prop} {l l' : List α}

theorem getElem?_forall₂ (h : List.Forall₂ R l l') (i : Nat) : Option.Rel R l[i]? l'[i]? := by
  induction h generalizing i with
  | nil => exact .none
  | cons hr _ ih =>
    cases i with
    | zero => exact .some hr
    | succ i => exact ih i

theorem set_forall₂ (h : List.Forall₂ R l l') {a a' : α} (ha : R a a') (i : Nat) : List.Forall₂ R (l.set i a) (l'.set i a') := by
  induction h generalizing i with
  | nil => exact .nil
  | cons hr h ih =>
    cases i with
    | zero => exact .cons ha h
    | succ i => exact .cons hr (ih i)

theorem map_eq_of_forall₂ (h : List.Forall₂ R l l') {g : α → β} (hg : ∀ {a a'}, R a a' → g a = g a') : l.map g = l'.map g := by
  rw [← List.forall₂_eq_eq_eq]
  exact List.rel_map (fun _ _ hr => hg hr) h

theorem flatMap_eq_of_forall₂ (h : List.Forall₂ R l l') {g : α → List β} (hg : ∀ {a a'}, R a a' → g a = g a') :
    l.flatMap g = l'.flatMap g := by
  rw [List.flatMap_def, List.flatMap_def, map_eq_of_forall₂ h hg]

end

namespace Resolver

/-- The same turn, and states that are alike. -/
structure Progress.Relisted (p p' : Progress) : Prop where
  turn : p.turn = p'.turn
  states : List.Forall₂ RequestState.Relisted p.states p'.states

/-- The same result, told in the same words, and states that are alike. -/
structure Run.Relisted (run run' : Run) : Prop where
  result : run.result = run'.result
  states : List.Forall₂ RequestState.Relisted run.states run'.states
  turn : run.turn = run'.turn
  log : run.log = run'.log

variable {p p' : Progress} {states states' : List RequestState}

theorem Progress.Relisted.resolveAt (h : p.Relisted p') (rules : Rules) (i : Nat) :
    (resolveAt (.standard rules) p i).Relisted (resolveAt (.standard rules) p' i) := by
  have hi := getElem?_forall₂ h.states i
  unfold Resolver.resolveAt
  rw [h.turn]
  generalize p.states[i]? = r at hi
  generalize p'.states[i]? = r' at hi
  cases hi with
  | none => exact h
  | some hs =>
    obtain ⟨hturn, hnext⟩ := hs.resolve rules p'.turn
    exact ⟨hturn, set_forall₂ h.states hnext i⟩

theorem Progress.Relisted.ask (h : p.Relisted p') (rules : Rules) (schedule : Schedule) (queue : List Nat) :
    (ask (.standard rules) schedule queue p).Relisted (ask (.standard rules) schedule queue p') := by
  unfold Resolver.ask
  generalize schedule.order queue = order
  induction order generalizing p p' with
  | nil => exact h
  | cons i order ih => exact ih (h.resolveAt rules i)

theorem classify_relisted (h : List.Forall₂ RequestState.Relisted states states') (policy : Policy) (queue : List Nat) :
    classify policy states queue = classify policy states' queue := by
  have hstep : classifyStep policy states = classifyStep policy states' := by
    funext v i
    have hi := getElem?_forall₂ h i
    unfold classifyStep
    generalize states[i]? = r at hi
    generalize states'[i]? = r' at hi
    cases hi with
    | none => rfl
    | some hs =>
      dsimp only
      rw [hs.outcome, hs.canGoFurther]
  rw [classify, classify, hstep]

theorem told_relisted (h : List.Forall₂ RequestState.Relisted states states') : told states = told states' :=
  flatMap_eq_of_forall₂ h fun hs => hs.visit.log

theorem Progress.Relisted.silenced (h : p.Relisted p') :
    Progress.Relisted { p with states := silenced p.states } { p' with states := silenced p'.states } :=
  ⟨h.turn, List.rel_map (fun _ _ hs => { hs with visit := ⟨hs.visit.session, hs.visit.attempts, rfl⟩ }) h.states⟩

theorem notFound_relisted (h : List.Forall₂ RequestState.Relisted states states') (request : Request) :
    notFound request states = notFound request states' := by
  unfold notFound
  rw [flatMap_eq_of_forall₂ h fun hs => hs.attempted, flatMap_eq_of_forall₂ h fun hs => hs.unmatched,
    flatMap_eq_of_forall₂ h fun hs => hs.rejected]

theorem Progress.Relisted.finish (h : p.Relisted p') (request : Request) (winner : Option Winner) (failures : List Failure)
    (log : Log) : (finish request winner failures p log).Relisted (finish request winner failures p' log) := by
  have hname : ∀ i : Nat, p.states[i]?.map (·.visit.name) = p'.states[i]?.map (·.visit.name) := fun i => by
    rw [← List.getElem?_map, ← List.getElem?_map, map_eq_of_forall₂ h.states fun hs => hs.visit.name]
  unfold Resolver.finish
  cases winner with
  | some w =>
    dsimp only
    rw [hname]
    exact ⟨rfl, h.states, h.turn, rfl⟩
  | none =>
    dsimp only
    rw [notFound_relisted h.states]
    exact ⟨rfl, h.states, h.turn, rfl⟩

section

variable {sessions sessions' : List Session} (h : List.Forall₂ Session.Relisted sessions sessions')

include h

/-- Requests to repositories that list in different orders go alike. -/
theorem run_relisted (rules : Rules) (schedule : Schedule) (turn : Nat) (request : Request) :
    (resolve (.standard rules) schedule turn sessions request).Relisted
      (resolve (.standard rules) schedule turn sessions' request) := by
  have hstart : Progress.Relisted ⟨turn, sessions.map (RequestState.start request)⟩
      ⟨turn, sessions'.map (RequestState.start request)⟩ :=
    ⟨rfl, List.rel_map (fun _ _ hs => .start hs request) h⟩
  have hfirst := hstart.ask rules schedule (List.range sessions'.length)
  have hnames := map_eq_of_forall₂ h fun hs => hs.repository.name
  unfold resolve
  dsimp only
  rw [h.length_eq, hnames]
  generalize ask (.standard rules) schedule (List.range sessions'.length) ⟨turn, sessions.map (.start request)⟩ = first
    at hfirst ⊢
  generalize ask (.standard rules) schedule (List.range sessions'.length) ⟨turn, sessions'.map (.start request)⟩ = first'
    at hfirst ⊢
  rw [classify_relisted hfirst.states, told_relisted hfirst.states]
  generalize classify (.standard rules) first'.states (List.range sessions'.length) = verdicts
  split
  · have hsecond := hfirst.silenced.ask rules schedule verdicts.deferred
    rw [classify_relisted hsecond.states, told_relisted hsecond.states]
    exact hsecond.finish request _ _ _
  · exact hfirst.finish request _ _ _

/-- The order in which tiers list versions changes nothing: the request comes to the same result and is told about in the same
words, and every tier is asked for the same metadata in the same order. -/
theorem resolve_relisted (rules : Rules) (schedule : Schedule) (turn : Nat) (request : Request) :
    let run := resolve (.standard rules) schedule turn sessions request
    let run' := resolve (.standard rules) schedule turn sessions' request
    run.result = run'.result ∧ run.log = run'.log ∧
      (∀ tier, run.sessions.map (·.lookups tier) = run'.sessions.map (·.lookups tier)) ∧
      List.Forall₂ Session.Relisted run.sessions run'.sessions := by
  intro run run'
  have hrun : run.Relisted run' := run_relisted h rules schedule turn request
  have hsessions : List.Forall₂ Session.Relisted run.sessions run'.sessions :=
    List.rel_map (fun _ _ hs => hs.visit.session) hrun.states
  exact ⟨hrun.result, hrun.log, fun tier => map_eq_of_forall₂ hsessions fun hs => hs.lookups_eq tier, hsessions⟩

end

/-- A repository that lists spellings of one version nearby, and has the metadata of one of them. -/
def spelled (versions : List String) : Session where
  repository := .ofCatalogues "r"
    ((({} : Catalogue).putFacts (.plain ⟨"g", "n", "1.0"⟩)).putListing ⟨"g", "n"⟩ (.versions versions)) {}

theorem relisted_spelled {versions versions' : List String} (h : versions.Perm versions') :
    (spelled versions).Relisted (spelled versions') := by
  refine ⟨⟨rfl, fun tier => ?_⟩, .nil⟩
  cases tier with
  | nearby => exact Catalogue.relisted_putListing _ ⟨"g", "n"⟩ h "r" .nearby
  | remote => exact .refl_of_static (fun _ _ _ => rfl) (fun _ _ _ _ => rfl)

/-- Equal spellings, one of them twice, in two orders. -/
theorem resolve_relisted_spelled :
    List.Forall₂ Session.Relisted [spelled ["1.0", "v1.0", "1.0.0", "1.0"]] [spelled ["1.0.0", "1.0", "1.0", "v1.0"]] ∧
      ((resolve (.standard {}) .inOrder 0 [spelled ["1.0", "v1.0", "1.0.0", "1.0"]] ⟨"g", "n", "[1.0,2.0)"⟩).result.toOption
        |>.bind (·.metadata.allVersions?)) = some ["v1.0", "1.0.0", "1.0", "1.0"] ∧
      (resolve (.standard {}) .inOrder 0 [spelled ["1.0", "v1.0", "1.0.0", "1.0"]] ⟨"g", "n", "[1.0,2.0)"⟩).result =
        (resolve (.standard {}) .inOrder 0 [spelled ["1.0.0", "1.0", "1.0", "v1.0"]] ⟨"g", "n", "[1.0,2.0)"⟩).result := by
  have hperm : ["1.0", "v1.0", "1.0.0", "1.0"].Perm ["1.0.0", "1.0", "1.0", "v1.0"] := by decide
  have h : List.Forall₂ Session.Relisted [spelled ["1.0", "v1.0", "1.0.0", "1.0"]]
      [spelled ["1.0.0", "1.0", "1.0", "v1.0"]] := .cons (relisted_spelled hperm) .nil
  refine ⟨h, ?_, (resolve_relisted h {} .inOrder 0 ⟨"g", "n", "[1.0,2.0)"⟩).1⟩
  rw [Policy.standard_eq]
  decide +kernel

end Resolver

end VersionChain
