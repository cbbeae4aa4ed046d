import VersionChain.Proofs.Economy
import VersionChain.Proofs.Precedence

/-!
# Wider ranges

A range is as wide as another one if each of its ends is open, or no nearer by value and not exclusive where the other includes that
value. What is in the narrower range is in the wider one. In a repository that always answers alike, the wider range matches the
same versions and perhaps more among them, so if the narrower one is resolved the wider one is, and to no older version.
-/

namespace VersionChain

/-! ## Ranges -/

/-- The second end of a range is as loose as the first one on the same side: open, or not farther on that side, and including the
value at which both lie if the first one does. -/
def Bound.Loosens (side : Ordering) (bound bound' : Option Bound) : Prop :=
  ∀ b', bound' = some b' → ∃ b, bound = some b ∧ b'.version.semanticCompare b.version ≠ side ∧
    (b'.version.semanticCompare b.version = .eq → b.inclusive = true → b'.inclusive = true)

/-- The second range is as wide as the first one. -/
structure Matcher.Widens (lower upper lower' upper' : Option Bound) : Prop where
  lower : Bound.Loosens .gt lower lower'
  upper : Bound.Loosens .lt upper upper'

/-- A bound admits the versions on its side, and those of its own value where it is inclusive. -/
theorem Bound.admits_iff {b : Bound} {side : Ordering} (hside : side ≠ .eq) {v : Version} :
    b.admits side v = true ↔
      v.semanticCompare b.version = side ∨ v.semanticCompare b.version = .eq ∧ b.inclusive = true := by
  unfold admits
  cases hc : v.semanticCompare b.version <;> cases side <;> simp_all

/-- What is beyond a bound, or on it, is beyond every bound that lies before it. -/
theorem Version.semanticCompare_beyond {side : Ordering} {u v w : Version} (hbefore : w.semanticCompare v = side.swap)
    (hbeyond : u.semanticCompare v = side ∨ u.semanticCompare v = .eq) : u.semanticCompare w = side := by
  have hswap : v.semanticCompare w = (w.semanticCompare v).swap := Std.OrientedCmp.eq_swap
  have hv : v.semanticCompare w = side := by rw [hswap, hbefore, Ordering.swap_swap]
  rcases hbeyond with h | h
  · cases side with
    | lt => exact Std.TransCmp.lt_trans h hv
    | eq => exact Std.TransCmp.eq_trans h hv
    | gt => exact Std.TransCmp.gt_trans h hv
  · rw [Std.TransCmp.congr_left h, hv]

theorem Bound.admits_of_loosens {side : Ordering} (hside : side ≠ .eq) {bound bound' : Option Bound}
    (h : Loosens side bound bound') {v : Version} (hv : bound.all (·.admits side v) = true) :
    bound'.all (·.admits side v) = true := by
  cases hb' : bound' with
  | none => rfl
  | some b' =>
    obtain ⟨b, rfl, hnot, hincl⟩ := h b' hb'
    rw [Option.all_some, admits_iff hside] at hv ⊢
    cases hc : b'.version.semanticCompare b.version with
    | eq =>
      have hsame : v.semanticCompare b'.version = v.semanticCompare b.version := Std.TransCmp.congr_right hc
      rw [hsame]
      exact hv.imp_right fun ⟨heq, hb⟩ => ⟨heq, hincl hc hb⟩
    | lt | gt =>
      refine Or.inl (Version.semanticCompare_beyond ?_ (hv.imp_right And.left))
      rw [hc]
      rw [hc] at hnot
      revert hside hnot
      cases side <;> decide

/-- What a range accepts, a wider one accepts. -/
theorem Matcher.accepts_of_widens {lower upper lower' upper' : Option Bound} (h : Widens lower upper lower' upper') {v : Version}
    (hv : (range lower upper).accepts v = true) : (range lower' upper').accepts v = true := by
  unfold accepts at hv ⊢
  rw [Bool.and_eq_true] at hv ⊢
  exact ⟨Bound.admits_of_loosens (by decide) h.lower hv.1, Bound.admits_of_loosens (by decide) h.upper hv.2⟩

/-! ## Answers that do not change -/

namespace Repository

/-- The repository says the same of a component whenever it is asked. -/
def AnswersFixedly (r : Repository) : Prop :=
  ∀ tier history history' component requested,
    (r.source tier).lookup history component requested = (r.source tier).lookup history' component requested

/-- What a search for the metadata of a version comes to in the repository. -/
def answer (r : Repository) (request : Request) (version : String) : LookupOutcome :=
  ((CandidateProbe.new request version).search { session := { repository := r } }).1

theorem answersFixedly_ofCatalogues (name : String) (nearby remote : Catalogue) :
    (ofCatalogues name nearby remote).AnswersFixedly := by
  intro tier history history' component requested
  cases tier <;> rfl

/-- The metadata that a search comes to is handed out. -/
theorem handsOut_answer {r : Repository} {request : Request} {version : String} {m : Metadata}
    (h : (r.answer request version).metadata? = some m) (s : RequestState) : r.HandsOut request version (s.handedOut m) := by
  obtain ⟨asked, hasks, htraced⟩ := CandidateProbe.traced_search (.new request version) { session := { repository := r } }
  obtain ⟨tier, o, hmem, ho⟩ := htraced.exists_lookup (LookupOutcome.metadata?_eq_some_iff.mp h)
  obtain ⟨history, rfl⟩ := hasks.answered _ hmem
  refine ⟨tier, history, m, ho, ?_⟩
  unfold RequestState.handedOut
  split
  · exact Or.inl rfl
  · exact Or.inr ⟨_, rfl⟩

end Repository

/-- Where answers do not change, a probe finds out what a search would come to at any time. -/
theorem CandidateProbe.Traced.eq_answer {r : Repository} (hfixed : r.AnswersFixedly) {request : Request} {version : String}
    {asked : History} {o : LookupOutcome} (h : Traced (request.component version) (request.pinned version) asked (some o))
    (hasked : ∀ a ∈ asked, a.AnsweredBy r) : r.answer request version = o := by
  have heq : ∀ tier history (a : LookupOutcome),
      .lookup tier (request.component version) (request.pinned version) a ∈ asked →
        (r.source tier).lookup history (request.component version) (request.pinned version) = a := by
    intro tier history a ha
    obtain ⟨history', rfl⟩ := hasked _ ha
    exact hfixed ..
  unfold Repository.answer search new Visit.lookup
  cases h with
  | nearby enough => simp [heq _ _ _ List.mem_cons_self, enough]
  | both silent =>
    simp [heq _ _ _ List.mem_cons_self, heq _ _ _ (List.mem_cons_of_mem _ List.mem_cons_self), silent]

/-- Where answers do not change, a state has found out what the repository answers at any time. -/
theorem RequestState.Accounted.agreesWith_answer {request : Request} {session : Session} {asked : History} {t : RequestState}
    (h : t.Accounted request session asked) (hfixed : session.repository.AnswersFixedly) :
    t.AgreesWith (session.repository.answer request) := by
  intro v o ho
  have htraced := h.lookups v
  rw [ho] at htraced
  exact htraced.eq_answer hfixed fun a ha => h.visit.answered a (List.mem_filter.mp ha).1

/-! ## What is matched and adopted -/

/-- Of a list in order, a part yields something first where the whole list does so too, and no later. -/
theorem findSome?_of_sublist {α β : Type} {R : α → α → Prop} (hrefl : ∀ x, R x x) {l l' : List α} (h : l.Sublist l')
    (hsorted : l'.Pairwise R) {f : α → Option β} {b : β} (hb : l.findSome? f = some b) :
    ∃ x ∈ l, ∃ y ∈ l', ∃ b', f x = some b ∧ f y = some b' ∧ l'.findSome? f = some b' ∧ R y x := by
  obtain ⟨x, hx, hfx⟩ := List.exists_of_findSome?_eq_some hb
  have hx' := h.subset hx
  cases hl : l'.findSome? f with
  | none => exact absurd (hfx.symm.trans (List.findSome?_eq_none_iff.mp hl x hx')) (Option.some_ne_none b)
  | some b' =>
    obtain ⟨before, y, after, rfl, hfy, hbefore⟩ := List.findSome?_eq_some_iff.mp hl
    refine ⟨x, hx, y, by simp, b', hfx, hfy, rfl, ?_⟩
    rcases List.mem_append.mp hx' with hmem | hmem
    · exact absurd (hfx.symm.trans (hbefore x hmem)) (Option.some_ne_none b)
    · rcases List.mem_cons.mp hmem with rfl | hmem
      · exact hrefl x
      · exact List.rel_of_pairwise_cons (List.pairwise_append.mp hsorted).2.1 hmem

namespace Policy

theorem pairwise_admitted (matcher : Matcher) (rules : Rules) (versions : List String) :
    (admitted matcher rules versions).Pairwise NoOlder :=
  (pairwise_newestFirst versions).filter _

/-- What accepts more admits more, in the same order. -/
theorem admitted_sublist {matcher matcher' : Matcher} (h : ∀ v, matcher.accepts v = true → matcher'.accepts v = true)
    (rules : Rules) (versions : List String) : (admitted matcher rules versions).Sublist (admitted matcher' rules versions) := by
  refine List.monotone_filter_right _ fun v hv => ?_
  simp only [admits, Bool.and_eq_true] at hv ⊢
  exact ⟨h _ hv.1, hv.2⟩

end Policy

namespace RequestState

/-- What the first step of a request for several versions comes to where answers do not change: the versions admitted are matched,
and the first of them with metadata is resolved. -/
theorem resolve_start_several {request : Request} {matcher : Matcher} (hsel : Matcher.ofSelector request.selector = .ok matcher)
    (hu : matcher.isUnique = false) {r : Repository} (hfixed : r.AnswersFixedly) {history : History} {rules : Rules} {turn : Nat}
    {versions : List String}
    (hlisted : ((start request ⟨r, history⟩).resolve (.standard rules) turn).2.listing.state = some (.listed versions)) :
    let s := ((start request ⟨r, history⟩).resolve (.standard rules) turn).2
    s.matching = Policy.admitted matcher rules versions ∧
      ∀ m, s.outcome = some (.resolved m) ↔
        ∃ chosen, s.matching.findSome? (fun v => (r.answer request v).metadata?) = some chosen ∧ m = s.handedOut chosen := by
  intro s
  obtain ⟨nearby, more, lookups, hacc, -⟩ := accounted_resolve_start request ⟨r, history⟩ (.standard rules) turn
  have hfit := (accounted_start request ⟨r, history⟩).fit
  obtain ⟨asked, hadv⟩ := resolve_advances hfit (.standard rules) turn
  have hstate : (start request ⟨r, history⟩).afterListing.listing.state = some (.listed versions) := by
    rw [← hadv.listing]
    exact hlisted
  have hs : s = (start request ⟨r, history⟩).afterListing.select (.standard rules) turn versions := by
    show (resolve _ _ _).2 = _
    rw [resolve_eq, hstate]
  have hans : s.AgreesWith (r.answer request) := hacc.agreesWith_answer hfixed
  have hmirrors := mirrors_select_standard (s := (start request ⟨r, history⟩).afterListing) hfit rfl rules turn versions
    (hs ▸ hans)
  rw [← hs] at hmirrors
  have hmatching := (Policy.standardDigest_of_not_needsMetadata hsel (Policy.needsMetadata_of_not_unique hu) rules versions
    (r.answer request) none).1
  have hadopts := Policy.adoptsFirst_standardDigest rules request versions (r.answer request) none
  have hnothing : (Policy.standardDigest rules request versions (r.answer request) none).NothingResolved :=
    Digest.NothingResolved.play (r.answer request) versions _ fun _ => (Option.some_ne_none _).symm
  rw [hu] at hmatching
  refine ⟨hmirrors.matching.trans hmatching, fun m => ?_⟩
  have houtcome : s.outcome = (Policy.standardDigest rules request versions (r.answer request) none).concluded := hmirrors.outcome
  have hsame : s.matching = (Policy.standardDigest rules request versions (r.answer request) none).matching := hmirrors.matching
  rw [Digest.AdoptsFirst, ← hsame] at hadopts
  rw [houtcome, Digest.concluded, ← hadopts, ← hsame]
  cases (Policy.standardDigest rules request versions (r.answer request) none).selected with
  | none =>
    refine iff_of_false (hnothing m) ?_
    rintro ⟨chosen, h, -⟩
    cases h
  | some chosen =>
    constructor
    · intro h
      obtain rfl := Lookup.resolved.inj (Option.some.inj h)
      exact ⟨chosen, rfl, rfl⟩
    · rintro ⟨chosen', h, rfl⟩
      obtain rfl := Option.some.inj h
      rfl

end RequestState

/-- A wider range accepts more. In a repository whose answers do not change, it then matches the versions that the narrower range
matches, in the same order and perhaps with others among them; and where the narrower range is resolved it is resolved as well, to
no older version. -/
theorem wider_range_resolves_no_older {lower upper lower' upper' : Option Bound} (h : Matcher.Widens lower upper lower' upper') :
    (∀ v, (Matcher.range lower upper).accepts v = true → (Matcher.range lower' upper').accepts v = true) ∧
      ∀ (rules : Rules) (turn turn' : Nat) (r : Repository) (history history' : History) (narrow wide : Request)
        (versions : List String),
        r.AnswersFixedly → wide.module = narrow.module →
        Matcher.ofSelector narrow.selector = .ok (.range lower upper) →
        Matcher.ofSelector wide.selector = .ok (.range lower' upper') →
        let s := ((RequestState.start narrow ⟨r, history⟩).resolve (.standard rules) turn).2
        let t := ((RequestState.start wide ⟨r, history'⟩).resolve (.standard rules) turn').2
        s.listing.state = some (.listed versions) → t.listing.state = some (.listed versions) →
          s.matching.Sublist t.matching ∧
            ∀ m, s.outcome = some (.resolved m) →
              ∃ m', t.outcome = some (.resolved m') ∧
                ∃ v ∈ s.matching, ∃ v' ∈ t.matching, r.HandsOut narrow v m ∧ r.HandsOut wide v' m' ∧ Policy.NoOlder v' v ∧
                  (r.AnswersAsAsked → m.id.version = v ∧ m'.id.version = v') := by
  have haccepts : ∀ v, (Matcher.range lower upper).accepts v = true → (Matcher.range lower' upper').accepts v = true :=
    fun v => Matcher.accepts_of_widens h
  refine ⟨haccepts, ?_⟩
  intro rules turn turn' r history history' narrow wide versions hfixed hmodule hnarrow hwide s t hs ht
  obtain ⟨hmatching, hresolved⟩ := RequestState.resolve_start_several hnarrow rfl hfixed hs
  obtain ⟨hmatching', hresolved'⟩ := RequestState.resolve_start_several hwide rfl hfixed ht
  have hsub : s.matching.Sublist t.matching := by
    rw [show s.matching = _ from hmatching, show t.matching = _ from hmatching']
    exact Policy.admitted_sublist haccepts rules versions
  have hsorted : t.matching.Pairwise Policy.NoOlder := by
    rw [show t.matching = _ from hmatching']
    exact Policy.pairwise_admitted _ rules versions
  -- both requests ask the repository the same about a version
  have hanswer : r.answer wide = r.answer narrow := by
    obtain ⟨hgroup, hname⟩ := Module.mk.inj hmodule
    unfold Repository.answer CandidateProbe.new Request.component Request.pinned
    rw [hgroup, hname]
  refine ⟨hsub, fun m hm => ?_⟩
  obtain ⟨chosen, hfirst, rfl⟩ := (hresolved m).mp hm
  obtain ⟨v, hv, v', hv', chosen', hchosen, hchosen', hfirst', hle⟩ :=
    findSome?_of_sublist (fun _ => Std.ReflCmp.isLE_rfl) hsub hsorted hfirst
  rw [← hanswer] at hchosen' hfirst'
  have hout := Repository.handsOut_answer hchosen s
  have hout' := Repository.handsOut_answer hchosen' t
  refine ⟨t.handedOut chosen', (hresolved' _).mpr ⟨chosen', hfirst', rfl⟩, v, hv, v', hv', hout, hout', hle, fun ha => ?_⟩
  exact ⟨congrArg Component.version (hout.id_eq ha), congrArg Component.version (hout'.id_eq ha)⟩

/-- Of the versions `1.0` to `4.0`, the third one is missing. The wider range spells its lower end in another way. -/
theorem wider_range_resolves_no_older_partlyMissing :
    let s := ((RequestState.start ⟨"g", "n", "[1.0,3.0]"⟩ Resolver.partlyMissing).resolve (.standard {}) 0).2
    let t := ((RequestState.start ⟨"g", "n", "[v1.0.0,4.0]"⟩ Resolver.partlyMissing).resolve (.standard {}) 0).2
    Matcher.Widens (some ⟨⟨"1.0"⟩, true⟩) (some ⟨⟨"3.0"⟩, true⟩) (some ⟨⟨"v1.0.0"⟩, true⟩) (some ⟨⟨"4.0"⟩, true⟩) ∧
      s.matching.Sublist t.matching ∧ (∃ m, s.outcome = some (.resolved m) ∧ m.id.version = "2.0") ∧
      ∃ m', t.outcome = some (.resolved m') ∧ Policy.NoOlder m'.id.version "2.0" := by
  intro s t
  have hwidens : Matcher.Widens (some ⟨⟨"1.0"⟩, true⟩) (some ⟨⟨"3.0"⟩, true⟩) (some ⟨⟨"v1.0.0"⟩, true⟩)
      (some ⟨⟨"4.0"⟩, true⟩) := by
    constructor <;> rintro b' hb' <;> obtain rfl := Option.some.inj hb' <;> exact ⟨_, rfl, by decide +kernel, by decide +kernel⟩
  have hshown : s.listing.state = some (.listed ["1.0", "2.0", "3.0", "4.0"]) ∧
      t.listing.state = some (.listed ["1.0", "2.0", "3.0", "4.0"]) ∧
      s.resolved.metadata?.map (·.id.version) = some "2.0" := by
    unfold s t
    rw [Policy.standard_eq]
    decide +kernel
  obtain ⟨hs, ht, hresolved⟩ := hshown
  obtain ⟨m, hm, hversion⟩ := Option.map_eq_some_iff.mp hresolved
  have hout : s.outcome = some (.resolved m) := LookupOutcome.metadata?_eq_some_iff.mp hm
  obtain ⟨-, hstates⟩ := wider_range_resolves_no_older hwidens
  obtain ⟨hsub, hno⟩ := hstates {} 0 0 Resolver.partlyMissing.repository [] [] ⟨"g", "n", "[1.0,3.0]"⟩
    ⟨"g", "n", "[v1.0.0,4.0]"⟩ ["1.0", "2.0", "3.0", "4.0"] (Repository.answersFixedly_ofCatalogues _ _ _) rfl
    (by decide +kernel) (by decide +kernel) hs ht
  obtain ⟨m', hout', v, -, v', -, -, -, hle, hversions⟩ := hno m hout
  obtain ⟨rfl, rfl⟩ := hversions Resolver.isPlain_partlyMissing.answersAsAsked
  exact ⟨hwidens, hsub, ⟨m, hout, hversion⟩, m', hout', hversion ▸ hle⟩

end VersionChain
