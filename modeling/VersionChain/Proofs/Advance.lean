import VersionChain.Proofs.Trace
import VersionChain.Resolver.State

/-!
# What a selection asks

A state asks for the metadata of a version once and remembers the outcome. `Advances` is what a selection does to a state, under
any policy: it asks for metadata that was not asked for before, and forgets nothing.
-/

namespace VersionChain

/-- Resolving a probe leaves what it searches for, and the probe remembers the outcome. -/
theorem CandidateProbe.resolve_probe (p : CandidateProbe) (v : Visit) :
    (p.resolve v).2.1 = { p with found := some (p.resolve v).1 } := by
  unfold CandidateProbe.resolve
  cases hf : p.found with
  | none => rfl
  | some o =>
    obtain ⟨c, q, f⟩ := p
    simp only at hf
    subst hf
    rfl

namespace RequestState

/-- What was found out about the metadata of a version, if it was asked for. -/
def found? (s : RequestState) (version : String) : Option LookupOutcome := (s.probe? version).bind (·.found)

/-- Every probe of the state searches for a version of the requested module, on account of that version. -/
def ProbesFit (s : RequestState) : Prop :=
  ∀ p ∈ s.candidates, p.component = s.request.component p.component.version ∧
    p.requested = s.request.pinned p.component.version

/-! ## Consulting a probe -/

theorem version_of_probe? {s : RequestState} {v : String} {p : CandidateProbe} (h : s.probe? v = some p) :
    p.component.version = v := by
  have := List.find?_some h
  simpa using this

theorem probe?_withProbe (s : RequestState) (v w : String) :
    (s.withProbe v).probe? w = (s.probe? w).or (if w = v then some (.new s.request v) else none) := by
  unfold withProbe
  by_cases hv : (s.probe? v).isSome = true
  · rw [if_pos hv]
    by_cases hw : w = v
    · subst hw
      obtain ⟨p, hp⟩ := Option.isSome_iff_exists.mp hv
      simp [hp]
    · simp [hw]
  · rw [if_neg hv]
    have hc : (CandidateProbe.new s.request v).component.version = v := rfl
    by_cases hw : w = v
    · subst hw
      simp [probe?, List.find?_append, hc]
    · simp [probe?, List.find?_append, hc, hw, Ne.symm hw]

@[simp] theorem found?_withProbe (s : RequestState) (v w : String) : (s.withProbe v).found? w = s.found? w := by
  unfold found?
  rw [probe?_withProbe]
  cases s.probe? w with
  | some p => rfl
  | none =>
    by_cases hw : w = v
    · simp [hw, CandidateProbe.new]
    · simp [hw]

theorem probe?_putProbe (s : RequestState) (p : CandidateProbe) (w : String) :
    (s.putProbe p).probe? w =
      (s.probe? w).map fun q => if q.component.version == p.component.version then p else q := by
  unfold probe? putProbe
  simp only [List.find?_map]
  congr 2
  funext q
  simp only [Function.comp]
  split
  · rename_i hq
    rw [beq_iff_eq] at hq
    rw [hq]
  · rfl

theorem ProbesFit.withProbe {s : RequestState} (h : s.ProbesFit) (v : String) : (s.withProbe v).ProbesFit := by
  unfold RequestState.withProbe
  split
  · exact h
  · intro p hp
    rcases List.mem_append.mp hp with hp | hp
    · exact h p hp
    · rw [List.mem_singleton] at hp
      subst hp
      exact ⟨rfl, rfl⟩

@[simp] theorem request_withProbe (s : RequestState) (v : String) : (s.withProbe v).request = s.request := by
  unfold withProbe
  split <;> rfl

/-- The probe that is consulted for a version. -/
def probeFor (s : RequestState) (v : String) : CandidateProbe := (s.probe? v).getD (.new s.request v)

theorem probeFor_component {s : RequestState} (h : s.ProbesFit) (v : String) :
    (s.probeFor v).component = s.request.component v ∧ (s.probeFor v).requested = s.request.pinned v := by
  unfold probeFor
  cases hp : s.probe? v with
  | none => exact ⟨rfl, rfl⟩
  | some p =>
    have hf := h p (List.mem_of_find?_eq_some hp)
    rw [version_of_probe? hp] at hf
    exact hf

theorem probeFor_found (s : RequestState) (v : String) : (s.probeFor v).found = s.found? v := by
  unfold probeFor found?
  cases s.probe? v <;> rfl

theorem version_probeFor (s : RequestState) (v : String) : (s.probeFor v).component.version = v := by
  unfold probeFor
  cases hp : s.probe? v with
  | none => rfl
  | some p => exact version_of_probe? hp

/-- Consulting resolves the probe for the version and keeps it. -/
theorem consult_eq (s : RequestState) (v : String) :
    s.consult v = (((s.probeFor v).resolve s.visit).1,
      { (s.withProbe v).putProbe ((s.probeFor v).resolve s.visit).2.1 with
        visit := ((s.probeFor v).resolve s.visit).2.2 }) := rfl

/-- What is found out about a version stays, and consulting one version says nothing about another. -/
theorem found?_consult (s : RequestState) (v w : String) :
    (s.consult v).2.found? w = if w = v then some (s.consult v).1 else s.found? w := by
  have hc : (s.consult v).2.found? w =
      ((s.withProbe v).putProbe ((s.probeFor v).resolve s.visit).2.1).found? w := rfl
  have hv : ((s.probeFor v).resolve s.visit).2.1.component.version = v := by
    rw [CandidateProbe.resolve_probe]
    exact version_probeFor s v
  rw [hc, found?, probe?_putProbe, hv]
  by_cases hw : w = v
  · rw [if_pos hw]
    subst hw
    cases hp : (s.withProbe w).probe? w with
    | none =>
      rw [probe?_withProbe] at hp
      simp at hp
    | some q =>
      simp only [Option.map_some, version_of_probe? hp, beq_self_eq_true, if_true, Option.bind_some]
      rw [CandidateProbe.resolve_probe]
      rfl
  · rw [if_neg hw, ← found?_withProbe s v w, found?]
    cases hp : (s.withProbe v).probe? w with
    | none => rfl
    | some q =>
      have hq : q.component.version ≠ v := by rwa [version_of_probe? hp]
      simp [hq]

theorem consult_of_found {s : RequestState} {v : String} {o : LookupOutcome} (h : s.found? v = some o) :
    (s.consult v).1 = o ∧ (s.consult v).2.visit = s.visit := by
  have hf : (s.probeFor v).found = some o := by rw [probeFor_found, h]
  rw [consult_eq]
  simp [CandidateProbe.resolve, hf]

/-- A version is searched for once: when nothing is known of it yet. -/
theorem consult_of_not_found {s : RequestState} {v : String} (h : s.found? v = none) :
    (s.consult v).1 = ((s.probeFor v).search s.visit).1 ∧ (s.consult v).2.visit = ((s.probeFor v).search s.visit).2 := by
  have hf : (s.probeFor v).found = none := by rw [probeFor_found, h]
  rw [consult_eq]
  simp [CandidateProbe.resolve, hf]

theorem ProbesFit.consult {s : RequestState} (h : s.ProbesFit) (v : String) : (s.consult v).2.ProbesFit := by
  have hr : (s.consult v).2.request = s.request := request_withProbe s v
  have hc : (s.consult v).2.candidates =
      ((s.withProbe v).putProbe ((s.probeFor v).resolve s.visit).2.1).candidates := rfl
  have hf : ((s.probeFor v).resolve s.visit).2.1.component = s.request.component v ∧
      ((s.probeFor v).resolve s.visit).2.1.requested = s.request.pinned v := by
    rw [CandidateProbe.resolve_probe]
    exact probeFor_component h v
  generalize ((s.probeFor v).resolve s.visit).2.1 = p' at hc hf
  intro p hp
  rw [hr]
  rw [hc] at hp
  obtain ⟨q, hq, rfl⟩ := List.mem_map.mp hp
  by_cases hqv : (q.component.version == p'.component.version) = true
  · rw [if_pos hqv, hf.1, hf.2]
    exact ⟨rfl, rfl⟩
  · rw [if_neg hqv]
    have := h.withProbe v q hq
    rwa [request_withProbe] at this

/-- Consulting touches the probes and the visit only. -/
theorem consult_frame (s : RequestState) (v : String) :
    (s.consult v).2 = { s with candidates := (s.consult v).2.candidates, visit := (s.consult v).2.visit } := by
  rw [consult_eq]
  unfold withProbe
  split <;> rfl

/-! ## What a selection does to a state -/

/-- The second state comes from the first by asking for metadata that the first one had not asked for, whatever else changes. -/
structure Advances (s : RequestState) (asked : History) (t : RequestState) : Prop where
  request : t.request = s.request
  listing : t.listing = s.listing
  visit : s.visit.Asks asked t.visit
  fit : t.ProbesFit
  /-- Only metadata is asked for. -/
  lookups : ∀ a ∈ asked, a.isListing = false
  /-- Nothing is forgotten, and nothing known is asked for again. -/
  known : ∀ v o, s.found? v = some o → t.found? v = some o ∧ asked.filter (·.concerns v) = []
  /-- What is new was asked for. -/
  new : ∀ v, s.found? v = none →
    CandidateProbe.Traced (s.request.component v) (s.request.pinned v) (asked.filter (·.concerns v)) (t.found? v)

theorem Advances.refl {s : RequestState} (h : s.ProbesFit) : s.Advances [] s where
  request := rfl
  listing := rfl
  visit := .refl _
  fit := h
  lookups := by simp
  known := fun _ _ ho => ⟨ho, rfl⟩
  new := fun v hv => by rw [hv]; exact .untried

/-- A probe that has found nothing has asked nothing. -/
theorem asked_eq_nil_of_traced_none {c : Component} {q : Request} {asked : History}
    (h : CandidateProbe.Traced c q asked none) : asked = [] := by
  cases h
  rfl

theorem Advances.trans {s t u : RequestState} {asked more : History} (h : s.Advances asked t) (h' : t.Advances more u) :
    s.Advances (asked ++ more) u where
  request := h'.request.trans h.request
  listing := h'.listing.trans h.listing
  visit := h.visit.trans h'.visit
  fit := h'.fit
  lookups := fun a ha => (List.mem_append.mp ha).elim (h.lookups a) (h'.lookups a)
  known := fun v o ho => by
    obtain ⟨h1, h2⟩ := h.known v o ho
    obtain ⟨h3, h4⟩ := h'.known v o h1
    exact ⟨h3, by rw [List.filter_append, h2, h4, List.append_nil]⟩
  new := fun v hv => by
    have h1 := h.new v hv
    rw [List.filter_append]
    cases ht : t.found? v with
    | none =>
      have h2 := h'.new v ht
      rw [ht] at h1
      rw [h.request] at h2
      rw [asked_eq_nil_of_traced_none h1, List.nil_append]
      exact h2
    | some o =>
      obtain ⟨h3, h4⟩ := h'.known v o ht
      rw [h4, h3, List.append_nil, ← ht]
      exact h1

/-- A change that leaves the request, the probes and the accesses alone. -/
theorem Advances.of_eq {s t : RequestState} (h : s.ProbesFit) (hr : t.request = s.request) (hl : t.listing = s.listing)
    (hc : t.candidates = s.candidates) (hs : t.visit.session = s.visit.session) : s.Advances [] t where
  request := hr
  listing := hl
  visit := ⟨by simpa using hs, by simp⟩
  fit := by
    intro p hp
    rw [hr]
    exact h p (hc ▸ hp)
  lookups := by simp
  known := fun v o ho => ⟨by rw [← ho]; unfold found? probe?; rw [hc], rfl⟩
  new := fun v hv => by
    have : t.found? v = none := by rw [← hv]; unfold found? probe?; rw [hc]
    rw [this]
    exact .untried

/-- Consulting a version that is known asks nothing. -/
theorem consult_advances_of_found {s : RequestState} (h : s.ProbesFit) {v : String} {o : LookupOutcome}
    (hv : s.found? v = some o) : s.Advances [] (s.consult v).2 := by
  have hframe := consult_frame s v
  obtain ⟨ho, hvisit⟩ := consult_of_found hv
  have hfound : ∀ w, (s.consult v).2.found? w = s.found? w := by
    intro w
    rw [found?_consult, ho]
    by_cases hw : w = v
    · rw [if_pos hw, hw, hv]
    · rw [if_neg hw]
  refine ⟨by rw [hframe], by rw [hframe], ?_, h.consult v, by simp, fun w o' ho' => ⟨by rw [hfound, ho'], rfl⟩,
    fun w hw => ?_⟩
  · rw [hvisit]
    exact .refl _
  · rw [hfound, hw]
    exact .untried

/-- Consulting a version that is not known asks for that version alone. -/
theorem consult_advances_of_not_found {s : RequestState} (h : s.ProbesFit) {v : String} (hv : s.found? v = none) :
    ∃ asked, s.Advances asked (s.consult v).2 := by
  have hframe := consult_frame s v
  obtain ⟨ho, hvisit⟩ := consult_of_not_found hv
  obtain ⟨asked, hasks, htr⟩ := (s.probeFor v).traced_search s.visit
  rw [(probeFor_component h v).1, (probeFor_component h v).2] at htr
  have hself : asked.filter (·.concerns v) = asked := htr.filter_concerns_self
  have hother : ∀ w, w ≠ v → asked.filter (·.concerns w) = [] := fun w hw => htr.filter_concerns_ne (Ne.symm hw)
  refine ⟨asked, by rw [hframe], by rw [hframe], by rwa [hvisit], h.consult v, fun a ha => (htr.concerns a ha).1,
    fun w o' ho' => ?_, fun w hw => ?_⟩
  · have hw : w ≠ v := by
      rintro rfl
      rw [hv] at ho'
      nomatch ho'
    exact ⟨by rw [found?_consult, if_neg hw, ho'], hother w hw⟩
  · rw [found?_consult]
    by_cases hwv : w = v
    · rw [if_pos hwv, hwv, hself, ho]
      exact htr
    · rw [if_neg hwv, hw, hother w hwv]
      exact .untried

theorem consult_advances {s : RequestState} (h : s.ProbesFit) (v : String) : ∃ asked, s.Advances asked (s.consult v).2 := by
  cases hv : s.found? v with
  | some o => exact ⟨[], consult_advances_of_found h hv⟩
  | none => exact consult_advances_of_not_found h hv

/-- The state before a version is tried for metadata; a version that was not listed is told about. -/
def noticing (s : RequestState) (c : Component) : RequestState :=
  if (s.probe? c.version).isSome then s else { s with visit := s.visit.tell (.unlisted c s.visit.name) }

theorem noticing_frame (s : RequestState) (c : Component) :
    s.noticing c = { s with visit := (s.noticing c).visit } ∧ (s.noticing c).visit.session = s.visit.session := by
  unfold noticing
  split <;> exact ⟨rfl, rfl⟩

/-- The state after the outcome of a tried version is taken in; where there is no metadata, that is told. -/
def taken (c : Component) (r : LookupOutcome × RequestState) : RequestState :=
  let x := CandidateProbe.report r.1 r.2.resolved
  let t := { r.2 with selected := x.1, resolved := x.2 }
  if x.1.isSome then t
  else { t with visit := t.visit.tell (.noMetadata c t.visit.name (Lookup.stateName x.2.result)) }

/-- Trying a version consults it, and takes in the outcome. -/
theorem adopt_eq (s : RequestState) (c : Component) : s.adopt c = taken c ((s.noticing c).consult c.version) := rfl

theorem taken_frame (c : Component) (r : LookupOutcome × RequestState) :
    taken c r = { r.2 with
      selected := (CandidateProbe.report r.1 r.2.resolved).1
      resolved := (CandidateProbe.report r.1 r.2.resolved).2
      visit := (taken c r).visit } ∧
    (taken c r).visit.session = r.2.visit.session := by
  unfold taken
  dsimp only
  split <;> exact ⟨rfl, rfl⟩

theorem resolved_consult_noticing (s : RequestState) (c : Component) :
    ((s.noticing c).consult c.version).2.resolved = s.resolved := by
  rw [consult_frame, (noticing_frame s c).1]

theorem found?_adopt (s : RequestState) (c : Component) :
    ∃ o, (∀ w, (s.adopt c).found? w = if w = c.version then some o else s.found? w) ∧
      (s.adopt c).selected = (CandidateProbe.report o s.resolved).1 ∧
      (s.adopt c).resolved = (CandidateProbe.report o s.resolved).2 := by
  have hfound := found?_consult (s.noticing c) c.version
  have hres := resolved_consult_noticing s c
  rw [adopt_eq]
  generalize (s.noticing c).consult c.version = r at hfound hres
  obtain ⟨ht, -⟩ := taken_frame c r
  refine ⟨r.1, fun w => ?_, by rw [ht, hres], by rw [ht, hres]⟩
  have h1 : (taken c r).found? w = r.2.found? w := by rw [ht]; rfl
  have h2 : (s.noticing c).found? w = s.found? w := by rw [(noticing_frame s c).1]; rfl
  rw [h1, hfound w, h2]

theorem adopt_advances {s : RequestState} (h : s.ProbesFit) (c : Component) : ∃ asked, s.Advances asked (s.adopt c) := by
  obtain ⟨hn, hses⟩ := noticing_frame s c
  have h1 : s.Advances [] (s.noticing c) := .of_eq h (by rw [hn]) (by rw [hn]) (by rw [hn]) hses
  obtain ⟨asked, h2⟩ := consult_advances h1.fit c.version
  rw [adopt_eq]
  generalize (s.noticing c).consult c.version = r at h2
  obtain ⟨ht, hses'⟩ := taken_frame c r
  exact ⟨_, (h1.trans h2).trans (.of_eq h2.fit (by rw [ht]) (by rw [ht]) (by rw [ht]) hses')⟩

/-- Taking in a verdict asks for at most one version. -/
theorem apply_advances {s : RequestState} (h : s.ProbesFit) (verdict : Verdict) :
    ∃ asked, s.Advances asked (s.apply verdict) := by
  cases verdict with
  | isMatch c =>
    have h1 : s.Advances [] { s with matching := s.matching ++ [c.version] } := .of_eq h rfl rfl rfl rfl
    unfold apply
    dsimp only
    split
    · exact ⟨_, h1⟩
    · obtain ⟨asked, h2⟩ := adopt_advances h1.fit c
      exact ⟨_, h1.trans h2⟩
  | notMatched v => exact ⟨[], .of_eq h rfl rfl rfl rfl⟩
  | rejected v => exact ⟨[], .of_eq h rfl rfl rfl rfl⟩
  | noMatch => exact ⟨[], .of_eq h rfl rfl rfl rfl⟩
  | failed f => exact ⟨[], .of_eq h rfl rfl rfl rfl⟩

/-- Following a selection, whatever the policy makes of it, asks only for metadata that was not asked for before. -/
theorem follow_advances (offered : List String) (sel : Selection) :
    ∀ {s : RequestState}, s.ProbesFit → ∃ asked, s.Advances asked (follow offered sel s) := by
  induction sel with
  | done => intro s h; exact ⟨[], .refl h⟩
  | report verdict next ih =>
    intro s h
    obtain ⟨asked, h1⟩ := apply_advances h verdict
    obtain ⟨more, h2⟩ := ih h1.fit
    exact ⟨_, h1.trans h2⟩
  | inspect position next ih =>
    intro s h
    unfold follow
    cases offered[position]? with
    | none => exact ih .unknown h
    | some v =>
      obtain ⟨asked, h1⟩ := consult_advances h v
      obtain ⟨more, h2⟩ := ih (s.consult v).1 h1.fit
      exact ⟨_, h1.trans h2⟩

theorem foldl_withProbe_frame (versions : List String) :
    ∀ s : RequestState, versions.foldl withProbe s = { s with candidates := (versions.foldl withProbe s).candidates } := by
  induction versions with
  | nil => intro s; rfl
  | cons v versions ih =>
    intro s
    have hv : s.withProbe v = { s with candidates := (s.withProbe v).candidates } := by
      unfold withProbe
      split <;> rfl
    rw [List.foldl_cons, ih, hv]

theorem found?_foldl_withProbe (versions : List String) (v : String) :
    ∀ s : RequestState, (versions.foldl withProbe s).found? v = s.found? v := by
  induction versions with
  | nil => intro s; rfl
  | cons w versions ih =>
    intro s
    rw [List.foldl_cons, ih, found?_withProbe]

theorem ProbesFit.foldl_withProbe (versions : List String) :
    ∀ {s : RequestState}, s.ProbesFit → (versions.foldl RequestState.withProbe s).ProbesFit := by
  induction versions with
  | nil => intro s h; exact h
  | cons v versions ih => intro s h; exact ih (h.withProbe v)

theorem foldl_withProbe_advances {s : RequestState} (h : s.ProbesFit) (versions : List String) :
    s.Advances [] (versions.foldl withProbe s) := by
  have hf := foldl_withProbe_frame versions s
  have hfound := fun v => found?_foldl_withProbe versions v s
  refine ⟨by rw [hf], by rw [hf], ?_, h.foldl_withProbe versions, by simp, fun v o ho => ⟨by rw [hfound, ho], rfl⟩,
    fun v hv => ?_⟩
  · rw [hf]
    exact .refl _
  · rw [hfound, hv]
    exact .untried

theorem conclude_advances {s : RequestState} (h : s.ProbesFit) : s.Advances [] s.conclude := by
  unfold conclude
  split
  · exact .refl h
  · exact .of_eq h rfl rfl rfl rfl

/-- Offering a listing to a policy asks only for metadata that was not asked for before. -/
theorem select_advances {s : RequestState} (h : s.ProbesFit) (policy : Policy) (turn : Nat) (versions : List String) :
    ∃ asked, s.Advances asked (s.select policy turn versions) := by
  have h1 : s.Advances [] { s with matching := [] } := .of_eq h rfl rfl rfl rfl
  have h2 := foldl_withProbe_advances h1.fit versions
  obtain ⟨asked, h3⟩ := follow_advances versions
    (policy.select turn (Candidate.offer (versions.foldl withProbe { s with matching := [] }).request versions)
      (versions.foldl withProbe { s with matching := [] }).request) h2.fit
  exact ⟨_, ((h1.trans h2).trans h3).trans (conclude_advances h3.fit)⟩

end RequestState

end VersionChain
