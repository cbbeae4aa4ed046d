import VersionChain.Proofs.Standing

/-!
# Which versions are consulted

A selection consults versions in an order of its own: those that the policy inspects, and its matches until one is adopted. `consulted`
is that order, under any policy. A selection asks a repository for what comes of consulting these versions one after another, and for
nothing else; a digest that is given the answers asks about the same versions.
-/

namespace VersionChain

/-! ## What a selection consults -/

theorem CandidateProbe.resolve_congr (p : CandidateProbe) {v w : Visit} (h : v.quiet = w.quiet) :
    (p.resolve v).1 = (p.resolve w).1 ∧ (p.resolve v).2.2.quiet = (p.resolve w).2.2.quiet := by
  obtain ⟨h1, -, h2⟩ := p.resolve_quiet v
  obtain ⟨h1', -, h2'⟩ := p.resolve_quiet w
  rw [h] at h1 h2
  exact ⟨h1.symm.trans h1', h2.symm.trans h2'⟩

namespace RequestState

/-- The versions consulted when a verdict is taken in: its match, unless something was adopted before. -/
def tries (s : RequestState) (verdict : Verdict) : List String :=
  if s.selected.isSome then [] else verdict.matched?.toList

/-- The versions consulted while a selection is followed, in order. -/
def consulted (offered : List String) : Selection → RequestState → List String
  | .done, _ => []
  | .report verdict next, s => s.tries verdict ++ consulted offered next (s.apply verdict)
  | .inspect position next, s =>
    match offered[position]? with
    | some version => version :: consulted offered (next (s.consult version).1) (s.consult version).2
    | none => consulted offered (next .unknown) s

/-- The state in which the policy is asked about a listing. -/
def offering (s : RequestState) (versions : List String) : RequestState := versions.foldl withProbe { s with matching := [] }

/-- The versions consulted when a repository is asked one step further. -/
def consultedIn (policy : Policy) (turn : Nat) (s : RequestState) : List String :=
  match s.afterListing.listing.state with
  | some (.listed versions) =>
    consulted versions (policy.select turn (Candidate.offer s.request versions) s.request) (s.afterListing.offering versions)
  | some (.failed _) | none => []

/-- The state after consulting versions one after another. -/
def consultAll (versions : List String) (s : RequestState) : RequestState := versions.foldl (fun s v => (s.consult v).2) s

/-- Two states know the same of the metadata of versions, and have asked the same. -/
structure DealtAlike (s t : RequestState) : Prop where
  request : s.request = t.request
  found : s.found? = t.found?
  visit : s.visit.quiet = t.visit.quiet
  fit : s.ProbesFit
  fit' : t.ProbesFit

variable {s t u : RequestState}

theorem DealtAlike.refl (h : s.ProbesFit) : DealtAlike s s := ⟨rfl, rfl, rfl, h, h⟩

/-- A change that leaves the probes and the accesses alone. -/
theorem DealtAlike.keep (h : DealtAlike s t) (hr : u.request = s.request) (hc : u.candidates = s.candidates)
    (hv : u.visit.quiet = s.visit.quiet) : DealtAlike u t where
  request := hr.trans h.request
  found := (found?_congr hc).trans h.found
  visit := hv.trans h.visit
  fit := fun p hp => by
    rw [hr]
    exact h.fit p (hc ▸ hp)
  fit' := h.fit'

theorem DealtAlike.probeFor_eq (h : DealtAlike s t) (v : String) : s.probeFor v = t.probeFor v := by
  obtain ⟨hc, hr⟩ := probeFor_component h.fit v
  obtain ⟨hc', hr'⟩ := probeFor_component h.fit' v
  have hf : (s.probeFor v).found = (t.probeFor v).found := by rw [probeFor_found, probeFor_found, h.found]
  rw [← h.request] at hc' hr'
  have hcomponent := hc.trans hc'.symm
  have hrequested := hr.trans hr'.symm
  generalize s.probeFor v = p at hcomponent hrequested hf
  generalize t.probeFor v = q at hcomponent hrequested hf
  cases p
  cases q
  exact CandidateProbe.mk.injEq .. ▸ ⟨hcomponent, hrequested, hf⟩

/-- Consulting a version leads alike from states that have dealt alike, and tells the same. -/
theorem DealtAlike.consult (h : DealtAlike s t) (v : String) :
    (s.consult v).1 = (t.consult v).1 ∧ DealtAlike (s.consult v).2 (t.consult v).2 := by
  obtain ⟨houtcome, hvisit⟩ := (s.probeFor v).resolve_congr h.visit
  have hsame : (s.consult v).1 = (t.consult v).1 := by
    rw [consult_eq, consult_eq, ← h.probeFor_eq v]
    exact houtcome
  refine ⟨hsame, ?_, ?_, ?_, h.fit.consult v, h.fit'.consult v⟩
  · rw [consult_frame s v, consult_frame t v]
    exact h.request
  · funext w
    rw [found?_consult, found?_consult, hsame, h.found]
  · rw [consult_eq, consult_eq, ← h.probeFor_eq v]
    exact hvisit

theorem noticing_quiet (s : RequestState) (c : Component) : (s.noticing c).visit.quiet = s.visit.quiet := by
  unfold noticing
  split <;> rfl

theorem taken_quiet (c : Component) (r : LookupOutcome × RequestState) : (taken c r).visit.quiet = r.2.visit.quiet := by
  unfold taken
  dsimp only
  split <;> rfl

theorem DealtAlike.adopt (h : DealtAlike s t) (c : Component) : DealtAlike (s.adopt c) (t.consult c.version).2 := by
  have hnoticing : DealtAlike (s.noticing c) t :=
    h.keep (by rw [(noticing_frame s c).1]) (by rw [(noticing_frame s c).1]) (noticing_quiet s c)
  have hconsult := (hnoticing.consult c.version).2
  rw [adopt_eq]
  exact hconsult.keep (by rw [(taken_frame c _).1]) (by rw [(taken_frame c _).1]) (taken_quiet c _)

/-- Taking in a verdict asks for what comes of the versions that are tried. -/
theorem DealtAlike.apply (h : DealtAlike s t) (verdict : Verdict) :
    DealtAlike (s.apply verdict) (consultAll (s.tries verdict) t) := by
  cases verdict with
  | notMatched | rejected | noMatch | failed =>
    have hnone : ∀ x : Verdict, x.matched? = none → s.tries x = [] := by
      intro x hx
      simp [tries, hx]
    rw [hnone _ rfl]
    exact h.keep rfl rfl rfl
  | isMatch c =>
    have hmatched : DealtAlike { s with matching := s.matching ++ [c.version] } t := h.keep rfl rfl rfl
    unfold RequestState.apply tries
    dsimp only
    split
    · exact hmatched
    · exact hmatched.adopt c

theorem consultAll_append (versions more : List String) (s : RequestState) :
    consultAll (versions ++ more) s = consultAll more (consultAll versions s) :=
  List.foldl_append

/-- Following a selection, whatever the policy makes of it, asks for what comes of the versions that are consulted. -/
theorem DealtAlike.follow (offered : List String) (sel : Selection) :
    ∀ {s t : RequestState}, DealtAlike s t →
      DealtAlike (RequestState.follow offered sel s) (consultAll (RequestState.consulted offered sel s) t) := by
  induction sel with
  | done => intro s t h; exact h
  | report verdict next ih =>
    intro s t h
    unfold RequestState.follow RequestState.consulted
    rw [consultAll_append]
    exact ih (h.apply verdict)
  | inspect position next ih =>
    intro s t h
    unfold RequestState.follow RequestState.consulted
    cases offered[position]? with
    | none => exact ih .unknown h
    | some version => exact ih _ (h.consult version).2

theorem request_offering (s : RequestState) (versions : List String) : (s.offering versions).request = s.request := by
  unfold offering
  rw [foldl_withProbe_frame]

theorem ProbesFit.offering (h : s.ProbesFit) (versions : List String) : (s.offering versions).ProbesFit :=
  ProbesFit.foldl_withProbe (s := { s with matching := [] }) versions h

theorem select_eq (policy : Policy) (turn : Nat) (versions : List String) (s : RequestState) :
    s.select policy turn versions =
      (follow versions (policy.select turn (Candidate.offer s.request versions) s.request) (s.offering versions)).conclude := by
  rw [← request_offering s versions]
  rfl

theorem DealtAlike.offering (h : DealtAlike s t) (versions : List String) : DealtAlike (s.offering versions) t where
  request := (request_offering s versions).trans h.request
  found := by
    funext v
    exact (found?_foldl_withProbe versions v _).trans (congrFun h.found v)
  visit := by
    unfold RequestState.offering
    rw [foldl_withProbe_frame]
    exact h.visit
  fit := h.fit.offering versions
  fit' := h.fit'

/-- Under any policy, a step asks for a listing, and then for what comes of the versions that it consults. -/
theorem dealtAlike_resolve (hfit : s.ProbesFit) (policy : Policy) (turn : Nat) :
    DealtAlike (s.resolve policy turn).2 (consultAll (s.consultedIn policy turn) s.afterListing) := by
  have hlisted : DealtAlike s.afterListing s.afterListing := .refl hfit
  rcases resolve_cases policy turn s with ⟨f, hl, ht⟩ | ⟨versions, hl, ht⟩ | ⟨hl, ht⟩ <;> rw [ht, consultedIn, hl]
  · exact hlisted.keep rfl rfl rfl
  · have hfollow := (hlisted.offering versions).follow versions
      (policy.select turn (Candidate.offer s.request versions) s.request)
    rw [select_eq]
    unfold conclude
    split
    · exact hfollow
    · exact hfollow.keep rfl rfl rfl
  · exact hlisted

/-! ## What a digest has asked about -/

variable {before : RequestState} {d : Digest} {answer : String → LookupOutcome}

/-- The versions that a digest has asked about are those that the state consults. -/
theorem Mirrors.asked_play (offered : List String) (sel : Selection) :
    ∀ {s : RequestState} {d : Digest}, s.ProbesFit → before.Mirrors s d →
      (RequestState.follow offered sel s).AgreesWith answer →
      (d.play answer offered sel).asked = d.asked ++ consulted offered sel s := by
  induction sel with
  | done => intro s d _ _ _; exact (List.append_nil _).symm
  | report verdict next ih =>
    intro s d hfit h hans
    obtain ⟨asked, h1⟩ := apply_advances hfit verdict
    obtain ⟨more, h2⟩ := follow_advances offered next h1.fit
    have hnext := ih h1.fit (h.apply verdict (hans.of_advances h2)) hans
    unfold Digest.play consulted
    rw [hnext, Digest.asked_take, ← h.selected, List.append_assoc]
    rfl
  | inspect position next ih =>
    intro s d hfit h hans
    unfold RequestState.follow at hans
    unfold Digest.play consulted
    cases hv : offered[position]? with
    | none =>
      rw [hv] at hans
      exact ih .unknown hfit h hans
    | some v =>
      rw [hv] at hans
      dsimp only at hans ⊢
      obtain ⟨asked, h1⟩ := consult_advances hfit v
      obtain ⟨more, h2⟩ := follow_advances offered (next (s.consult v).1) h1.fit
      have ho : answer v = (s.consult v).1 := hans.of_advances h2 v _ (by rw [found?_consult, if_pos rfl])
      rw [ho, ih _ h1.fit (h.consult v) hans, Digest.note, List.append_assoc]
      rfl

/-- The versions that a selection asks about are those that are consulted. -/
theorem asked_play_select (hfit : s.ProbesFit) (policy : Policy) (turn : Nat) (versions : List String) :
    let sel := policy.select turn (Candidate.offer s.request versions) s.request
    (Digest.play (s.select policy turn versions).answer versions sel { selected := s.selected, result := s.outcome }).asked =
      consulted versions sel (s.offering versions) := by
  intro sel
  have hans := agreesWith_answer (s.select policy turn versions)
  generalize (s.select policy turn versions).answer = answer at hans ⊢
  rw [select_eq] at hans
  obtain ⟨more, hadv⟩ := follow_advances versions sel (hfit.offering versions)
  have hmirrors : s.Mirrors (s.offering versions) { selected := s.selected, result := s.outcome } :=
    mirrors_foldl_withProbe s versions
  exact hmirrors.asked_play versions sel (hfit.offering versions) (hans.of_advances (conclude_advances hadv.fit))

/-- What a selection asks for is the metadata of versions of which nothing was known before, and something is known after. -/
theorem Advances.exists_lookup {asked : History} (h : s.Advances asked t) {a : Access} (ha : a ∈ asked) :
    ∃ v tier o, a = .lookup tier (s.request.component v) (s.request.pinned v) o ∧ s.found? v = none ∧
      (t.found? v).isSome = true := by
  cases a with
  | listing tier request o => cases h.lookups _ ha
  | lookup tier component requested o =>
    have hmem : Access.lookup tier component requested o ∈ asked.filter (·.concerns component.version) :=
      List.mem_filter.mpr ⟨ha, by simp [Access.concerns]⟩
    have hunknown : s.found? component.version = none := by
      refine Option.eq_none_iff_forall_ne_some.mpr fun known hknown => ?_
      rw [(h.known _ known hknown).2] at hmem
      exact List.not_mem_nil hmem
    have htraced := h.new _ hunknown
    refine ⟨component.version, ?_⟩
    generalize asked.filter (·.concerns component.version) = l at hmem htraced
    generalize t.found? component.version = found at htraced
    cases htraced with
    | untried => exact absurd hmem List.not_mem_nil
    | nearby enough =>
      rw [List.mem_singleton.mp hmem]
      exact ⟨_, _, rfl, hunknown, rfl⟩
    | both silent =>
      rcases List.mem_pair.mp hmem with heq | heq <;> rw [heq] <;> exact ⟨_, _, rfl, hunknown, rfl⟩

end RequestState

end VersionChain
