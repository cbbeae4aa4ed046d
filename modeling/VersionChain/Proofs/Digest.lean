import VersionChain.Proofs.Passes

/-!
# What a selection comes to

A state that follows a selection asks for metadata as it goes. A `Digest` is what the verdicts make of it, and `Digest.play`
follows a selection with every answer given beforehand. The state ends where the digest does, whenever the answers given are the
ones the state finds out.
-/

namespace VersionChain

/-- The version a verdict selects. -/
def Verdict.matched? : Verdict → Option String
  | .isMatch component => some component.version
  | _ => none

/-- What the verdicts of a selection have come to. -/
structure Digest where
  /-- The versions matched, in the order of the verdicts. -/
  matching : List String := []
  /-- The versions whose metadata was asked for. -/
  asked : List String := []
  /-- The metadata of the adopted version. -/
  selected : Option Metadata := none
  /-- What was found apart from that. -/
  result : Option Lookup

namespace Digest

/-- Notes that the metadata of a version was asked for. -/
def note (d : Digest) (version : String) : Digest := { d with asked := d.asked ++ [version] }

variable (answer : String → LookupOutcome)

/-- Tries to adopt a matched version. -/
def adopt (d : Digest) (version : String) : Digest :=
  match (answer version).result with
  | some (.resolved m) => { d.note version with selected := some m }
  | some r => { d.note version with result := some r }
  | none => d.note version

/-- Takes in a match, and tries to adopt it if nothing was adopted before. -/
def takeMatch (d : Digest) (version : String) : Digest :=
  let d := { d with matching := d.matching ++ [version] }
  if d.selected.isSome then d else d.adopt answer version

/-- Takes in a verdict. -/
def take (d : Digest) : Verdict → Digest
  | .isMatch component => d.takeMatch answer component.version
  | .notMatched _ => d
  | .rejected _ => d
  | .noMatch => { d with result := some .missing }
  | .failed f => { d with result := some (.failed f) }

/-- Follows a selection among the offered versions to its end. -/
def play (offered : List String) : Selection → Digest → Digest
  | .done, d => d
  | .report verdict next, d => play offered next (d.take answer verdict)
  | .inspect position next, d =>
    match offered[position]? with
    | some version => play offered (next (answer version)) (d.note version)
    | none => play offered (next .unknown) d

/-- What the repository comes to in the end: the adopted metadata, wrapped unless just one version matched. -/
def concluded (d : Digest) : Option Lookup :=
  match d.selected with
  | none => d.result
  | some m => some (.resolved (if d.matching.length = 1 then m else .chosen d.matching m))

theorem matching_adopt (d : Digest) (version : String) : (d.adopt answer version).matching = d.matching := by
  unfold adopt
  split <;> rfl

@[simp] theorem matching_takeMatch (d : Digest) (version : String) :
    (d.takeMatch answer version).matching = d.matching ++ [version] := by
  unfold takeMatch
  dsimp only
  split
  · rfl
  · exact matching_adopt ..

theorem matching_take (d : Digest) (verdict : Verdict) :
    (d.take answer verdict).matching = d.matching ++ verdict.matched?.toList := by
  cases verdict with
  | isMatch component => exact matching_takeMatch ..
  | notMatched | rejected | noMatch | failed => simp [take, Verdict.matched?]

/-- The matches of a selection are those among the verdicts of its run. -/
theorem matching_play (offered : List String) (sel : Selection) :
    ∀ d : Digest, (play answer offered sel d).matching =
      d.matching ++ (sel.run (offered.map answer)).1.filterMap Verdict.matched? := by
  induction sel with
  | done => intro d; simp [play, Selection.run]
  | report verdict next ih =>
    intro d
    rw [play, ih, matching_take, Selection.run, List.filterMap_cons]
    cases verdict.matched? <;> simp
  | inspect position next ih =>
    intro d
    unfold play Selection.run
    cases hv : offered[position]? with
    | none => simp [ih, hv]
    | some version => simp [ih, hv, note]

/-- Apart from what is adopted, nothing is resolved. -/
def NothingResolved (d : Digest) : Prop := ∀ m, d.result ≠ some (.resolved m)

theorem NothingResolved.adopt {d : Digest} (h : d.NothingResolved) (version : String) :
    (d.adopt answer version).NothingResolved := by
  unfold Digest.adopt
  rcases (answer version).result with _ | _ | _ | _
  · exact h
  · exact h
  · exact fun m hm => nomatch hm
  · exact fun m hm => nomatch hm

theorem NothingResolved.take {d : Digest} (h : d.NothingResolved) (verdict : Verdict) :
    (d.take answer verdict).NothingResolved := by
  cases verdict with
  | isMatch component =>
    unfold Digest.take takeMatch
    dsimp only
    split
    · exact h
    · exact NothingResolved.adopt answer (d := { d with matching := d.matching ++ [component.version] }) h _
  | notMatched v => exact h
  | rejected v => exact h
  | noMatch => exact fun m hm => nomatch hm
  | failed f => exact fun m hm => nomatch hm

theorem NothingResolved.play (offered : List String) (sel : Selection) :
    ∀ {d : Digest}, d.NothingResolved → (d.play answer offered sel).NothingResolved := by
  induction sel with
  | done => intro d h; exact h
  | report verdict next ih => intro d h; exact ih (h.take answer verdict)
  | inspect position next ih =>
    intro d h
    unfold Digest.play
    cases offered[position]? with
    | none => exact ih _ h
    | some v => exact ih _ h

end Digest

namespace RequestState

/-- A state shows what a digest says, having started from a state that had asked for some metadata before. -/
structure Mirrors (before s : RequestState) (d : Digest) : Prop where
  matching : s.matching = d.matching
  selected : s.selected = d.selected
  outcome : s.outcome = d.result
  found : ∀ v, (s.found? v).isSome = true ↔ (before.found? v).isSome = true ∨ v ∈ d.asked

/-- The answers are those that the state found out, wherever it found out any. -/
def AgreesWith (s : RequestState) (answer : String → LookupOutcome) : Prop := ∀ v o, s.found? v = some o → answer v = o

/-- What the state knows of the metadata of a version. -/
def answer (s : RequestState) (version : String) : LookupOutcome := (s.found? version).getD .unknown

theorem agreesWith_answer (s : RequestState) : s.AgreesWith s.answer := by
  intro v o ho
  rw [answer, ho]
  rfl

theorem AgreesWith.of_advances {s t : RequestState} {asked : History} {answer : String → LookupOutcome}
    (h : t.AgreesWith answer) (h' : s.Advances asked t) : s.AgreesWith answer :=
  fun v o ho => h v o (h'.known v o ho).1

theorem matching_adopt (s : RequestState) (c : Component) : (s.adopt c).matching = s.matching := by
  rw [adopt_eq, (taken_frame c _).1]
  dsimp only
  rw [consult_frame, (noticing_frame s c).1]

variable {before s : RequestState} {d : Digest} {answer : String → LookupOutcome}

theorem Mirrors.note (h : before.Mirrors s d) {t : RequestState} {v : String} {o : LookupOutcome}
    (hm : t.matching = s.matching) (hsel : t.selected = s.selected) (hout : t.outcome = s.outcome)
    (hf : ∀ w, t.found? w = if w = v then some o else s.found? w) : before.Mirrors t (d.note v) where
  matching := hm.trans h.matching
  selected := hsel.trans h.selected
  outcome := hout.trans h.outcome
  found := fun w => by
    rw [hf, Digest.note, List.mem_append, List.mem_singleton]
    by_cases hw : w = v
    · simp [hw]
    · simp [hw, h.found]

theorem Mirrors.adopt (h : before.Mirrors s d) (hsel : s.selected = none) (c : Component)
    (hans : (s.adopt c).AgreesWith answer) : before.Mirrors (s.adopt c) (d.adopt answer c.version) := by
  obtain ⟨o, hf, hs, hr⟩ := found?_adopt s c
  obtain rfl : answer c.version = o := hans c.version o (by rw [hf, if_pos rfl])
  have hd : d.selected = none := by rw [← h.selected, hsel]
  have hfound : ∀ w, ((s.adopt c).found? w).isSome = true ↔
      (before.found? w).isSome = true ∨ w ∈ d.asked ++ [c.version] := by
    intro w
    rw [hf, List.mem_append, List.mem_singleton]
    by_cases hw : w = c.version
    · simp [hw]
    · simp [hw, h.found]
  have hm := (matching_adopt s c).trans h.matching
  have hout : s.resolved.result = d.result := h.outcome
  unfold Digest.adopt Digest.note
  unfold CandidateProbe.report at hs hr
  rcases hres : (answer c.version).result with _ | m | _ | f <;> rw [hres] at hs hr
  · exact ⟨hm, hs.trans hd.symm, by rw [RequestState.outcome, hr, hout], hfound⟩
  · exact ⟨hm, hs, by rw [RequestState.outcome, hr, hout], hfound⟩
  · exact ⟨hm, hs.trans hd.symm, by rw [RequestState.outcome, hr], hfound⟩
  · exact ⟨hm, hs.trans hd.symm, by rw [RequestState.outcome, hr], hfound⟩

theorem Mirrors.apply (h : before.Mirrors s d) (verdict : Verdict) (hans : (s.apply verdict).AgreesWith answer) :
    before.Mirrors (s.apply verdict) (d.take answer verdict) := by
  cases verdict with
  | isMatch c =>
    have h' : before.Mirrors { s with matching := s.matching ++ [c.version] }
        { d with matching := d.matching ++ [c.version] } :=
      ⟨by rw [h.matching], h.selected, h.outcome, h.found⟩
    unfold RequestState.apply at hans ⊢
    unfold Digest.take Digest.takeMatch
    dsimp only at hans ⊢
    by_cases hsel : s.selected.isSome = true
    · rw [if_pos hsel, if_pos (by rwa [← h.selected])]
      exact h'
    · rw [if_neg hsel] at hans
      rw [if_neg hsel, if_neg (by rwa [← h.selected])]
      exact h'.adopt (by simpa using hsel) c hans
  | notMatched v => exact ⟨h.matching, h.selected, h.outcome, h.found⟩
  | rejected v => exact ⟨h.matching, h.selected, h.outcome, h.found⟩
  | noMatch => exact ⟨h.matching, h.selected, rfl, h.found⟩
  | failed f => exact ⟨h.matching, h.selected, rfl, h.found⟩

/-- Consulting a version is noted. -/
theorem Mirrors.consult (h : before.Mirrors s d) (v : String) : before.Mirrors (s.consult v).2 (d.note v) := by
  have hframe := consult_frame s v
  exact h.note (by rw [hframe]) (by rw [hframe]) (by rw [RequestState.outcome, hframe]; rfl) (found?_consult s v)

/-- A state that follows a selection ends where the digest does. -/
theorem Mirrors.follow (offered : List String) (sel : Selection) :
    ∀ {s : RequestState} {d : Digest}, s.ProbesFit → before.Mirrors s d → (follow offered sel s).AgreesWith answer →
      before.Mirrors (follow offered sel s) (d.play answer offered sel) := by
  induction sel with
  | done => intro s d _ h _; exact h
  | report verdict next ih =>
    intro s d hfit h hans
    obtain ⟨asked, h1⟩ := apply_advances hfit verdict
    obtain ⟨more, h2⟩ := follow_advances offered next h1.fit
    exact ih h1.fit (h.apply verdict (hans.of_advances h2)) hans
  | inspect position next ih =>
    intro s d hfit h hans
    unfold RequestState.follow at hans ⊢
    unfold Digest.play
    cases hv : offered[position]? with
    | none =>
      rw [hv] at hans
      exact ih .unknown hfit h hans
    | some v =>
      rw [hv] at hans
      dsimp only at hans ⊢
      obtain ⟨asked, h1⟩ := consult_advances hfit v
      obtain ⟨more, h2⟩ := follow_advances offered (next (s.consult v).1) h1.fit
      have ho : answer v = (s.consult v).1 := hans.of_advances h2 v _ (by rw [found?_consult, if_pos rfl])
      rw [ho]
      exact ih _ h1.fit (h.consult v) hans

theorem Mirrors.conclude (h : before.Mirrors s d) : before.Mirrors s.conclude { d with result := d.concluded } := by
  unfold RequestState.conclude Digest.concluded
  cases hs : s.selected with
  | none =>
    rw [← h.selected, hs]
    exact ⟨h.matching, hs, h.outcome, h.found⟩
  | some m =>
    rw [← h.selected, hs, ← h.matching]
    exact ⟨rfl, rfl, rfl, h.found⟩

/-- The policy is asked about a listing when nothing in it was matched or consulted yet. -/
theorem mirrors_foldl_withProbe (s : RequestState) (versions : List String) :
    s.Mirrors (versions.foldl withProbe { s with matching := [] }) { selected := s.selected, result := s.outcome } := by
  have hframe := foldl_withProbe_frame versions { s with matching := [] }
  refine ⟨by rw [hframe], by rw [hframe], by rw [RequestState.outcome, hframe]; rfl, fun v => ?_⟩
  rw [found?_foldl_withProbe]
  simp [found?, probe?]

/-- What offering a listing to a policy comes to, whatever was adopted before. -/
theorem mirrors_select_again {s : RequestState} (hfit : s.ProbesFit) (policy : Policy) (turn : Nat) (versions : List String)
    (hans : (s.select policy turn versions).AgreesWith answer) :
    let d := Digest.play answer versions (policy.select turn (Candidate.offer s.request versions) s.request)
      { selected := s.selected, result := s.outcome }
    s.Mirrors (s.select policy turn versions) { d with result := d.concluded } := by
  have h1 : RequestState.Advances { s with matching := [] } [] _ :=
    foldl_withProbe_advances (s := { s with matching := [] }) hfit versions
  have h0 := mirrors_foldl_withProbe s versions
  have hreq := h1.request
  unfold select at hans ⊢
  dsimp only at hans hreq ⊢
  generalize hp : versions.foldl withProbe { s with matching := [] } = p at h1 h0 hreq hans ⊢
  rw [hreq] at hans ⊢
  obtain ⟨asked, h2⟩ := follow_advances versions (policy.select turn (Candidate.offer s.request versions) s.request) h1.fit
  exact (h0.follow versions _ h1.fit (hans.of_advances (conclude_advances h2.fit))).conclude

/-- What offering a listing to a policy comes to, where nothing was adopted before. -/
theorem mirrors_select {s : RequestState} (hfit : s.ProbesFit) (hsel : s.selected = none) (policy : Policy) (turn : Nat)
    (versions : List String) (hans : (s.select policy turn versions).AgreesWith answer) :
    let d := Digest.play answer versions (policy.select turn (Candidate.offer s.request versions) s.request)
      { result := s.outcome }
    s.Mirrors (s.select policy turn versions) { d with result := d.concluded } := by
  have h := mirrors_select_again hfit policy turn versions hans
  rwa [hsel] at h

/-! ## Adopted metadata is the outcome -/

/-- The probes of the state fit, and what it has adopted is what it came to. -/
structure Coherent (s : RequestState) : Prop where
  fit : s.ProbesFit
  selected : s.selected.isSome = true → ∃ m, s.outcome = some (.resolved m)

theorem coherent_start (request : Request) (session : Session) : (start request session).Coherent where
  fit := (accounted_start request session).fit
  selected := nofun

theorem Coherent.congr {s t : RequestState} (h : s.quiet = t.quiet) (hs : s.Coherent) : t.Coherent := by
  have hq : ∀ u : RequestState, u.Coherent ↔ u.quiet.Coherent :=
    fun u => ⟨fun h => ⟨h.fit, h.selected⟩, fun h => ⟨h.fit, h.selected⟩⟩
  rw [hq] at hs ⊢
  rwa [← h]

/-- A state that has found nothing has adopted nothing. -/
theorem Coherent.selected_eq_none {s : RequestState} (h : s.Coherent) (hn : s.FoundNothing) : s.selected = none := by
  cases hs : s.selected with
  | none => rfl
  | some m =>
    obtain ⟨m', hm⟩ := h.selected (by rw [hs]; rfl)
    exact absurd hm (hn.outcome_ne_resolved m')

theorem Coherent.step {s : RequestState} (h : s.Coherent) (hn : s.FoundNothing) (policy : Policy) (turn : Nat) :
    (s.resolve policy turn).2.Coherent := by
  have hsel : s.afterListing.selected = none := h.selected_eq_none hn
  refine ⟨?_, ?_⟩
  · obtain ⟨asked, hadv⟩ := resolve_advances h.fit policy turn
    exact hadv.fit
  · rcases resolve_cases policy turn s with ⟨f, -, ht⟩ | ⟨versions, -, ht⟩ | ⟨-, ht⟩ <;> rw [ht]
    · intro hs
      have hs' : s.afterListing.selected.isSome = true := hs
      rw [hsel] at hs'
      nomatch hs'
    · intro hs
      have hmirrors := mirrors_select (s := s.afterListing) h.fit hsel policy turn versions (agreesWith_answer _)
      have hs' := hmirrors.selected
      obtain ⟨m, hm⟩ := Option.isSome_iff_exists.mp hs
      exact ⟨_, by rw [hmirrors.outcome, Digest.concluded, ← hs', hm]⟩
    · exact h.selected

end RequestState

end VersionChain
