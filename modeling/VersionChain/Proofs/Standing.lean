import VersionChain.Proofs.Matching
import VersionChain.Proofs.Steps

/-!
# What a state stands by, after any number of steps

Under the standard policy, the matches of a state are those of the latest listing, and each listing replaces them. What was adopted
is kept through all later listings. `Standing` says so of a state and what was asked for it, and every step keeps it. It follows how
often a version is among the matches, and when a resolved version is no longer among them.
-/

namespace VersionChain

namespace Digest

/-- What was adopted stays adopted. -/
theorem selected_play {answer : String → LookupOutcome} {m : Metadata} (offered : List String) (sel : Selection) :
    ∀ {d : Digest}, d.selected = some m → (d.play answer offered sel).selected = some m := by
  induction sel with
  | done => intro d h; exact h
  | report verdict next ih =>
    intro d h
    refine ih ?_
    cases verdict with
    | isMatch component =>
      unfold take
      dsimp only
      rwa [takeMatch_of_selected (by rw [h]; rfl)]
    | notMatched | rejected | noMatch | failed => exact h
  | inspect position next ih =>
    intro d h
    unfold play
    cases offered[position]? with
    | none => exact ih _ h
    | some version => exact ih _ h

end Digest

/-- The versions that were listed latest, if any were. -/
def latest (asked : History) : List String := (listed asked).getLast?.getD []

theorem Policy.matched_nil (rules : Rules) (request : Request) (answer : String → LookupOutcome) :
    matched rules request answer [] = [] := by
  refine List.eq_nil_iff_forall_not_mem.mpr fun v hv => ?_
  obtain ⟨matcher, -, -, hleads⟩ := mem_matched.mp hv
  exact List.not_mem_nil hleads.listed

namespace RequestState

variable {rules : Rules} {request : Request} {session : Session} {asked more : History} {s t : RequestState}

/-! ## What a state stands by -/

/-- Where the metadata comes from that a state has adopted: from a version that was listed at some time, and is selected by what is
known of it. -/
structure AdoptedFor (rules : Rules) (request : Request) (asked : History) (s : RequestState) (m : Metadata) (matcher : Matcher)
    (v : String) : Prop where
  readable : Matcher.ofSelector request.selector = .ok matcher
  listed : ∃ versions ∈ listed asked, v ∈ versions
  known : (s.found? v).isSome = true
  metadata : (s.answer v).metadata? = some m
  selected : Policy.selects matcher rules (s.answer v) v = true

/-- What is adopted stays so while nothing is forgotten. -/
theorem AdoptedFor.mono {m : Metadata} {matcher : Matcher} {v : String} (h : s.AdoptedFor rules request asked m matcher v)
    (hknown : ∀ v o, s.found? v = some o → t.found? v = some o) : t.AdoptedFor rules request (asked ++ more) m matcher v := by
  obtain ⟨o, ho⟩ := Option.isSome_iff_exists.mp h.known
  have hanswer : t.answer v = s.answer v := by rw [answer, answer, ho, hknown v o ho]
  obtain ⟨versions, hversions, hv⟩ := h.listed
  refine ⟨h.readable, ⟨versions, ?_, hv⟩, by rw [hknown v o ho]; rfl, hanswer ▸ h.metadata, hanswer ▸ h.selected⟩
  rw [listed_append]
  exact List.mem_append_left _ hversions

/-- Adopted metadata as a state hands it out: wrapped with the matches, unless there is just one. -/
def handedOut (s : RequestState) (m : Metadata) : Metadata := if s.matching.length = 1 then m else .chosen s.matching m

/-- The state of a request under the standard policy: what it has adopted comes from some listing, and what it has resolved is what
it has adopted. -/
structure Backed (rules : Rules) (request : Request) (session : Session) (asked : History) (s : RequestState) : Prop where
  accounted : s.Accounted request session asked
  adopted : ∀ m, s.selected = some m → ∃ matcher v, s.AdoptedFor rules request asked m matcher v
  resolved : ∀ m, s.outcome = some (.resolved m) → ∃ selected, s.selected = some selected ∧ m = s.handedOut selected

/-- Such a state between two steps: its matches are those of the latest listing. -/
structure Standing (rules : Rules) (request : Request) (session : Session) (asked : History) (s : RequestState) : Prop extends
    Backed rules request session asked s where
  matching : s.matching = Policy.matched rules request s.answer (latest asked)

theorem standing_start (rules : Rules) (request : Request) (session : Session) :
    (start request session).Standing rules request session [] where
  accounted := accounted_start request session
  adopted := nofun
  resolved := nofun
  matching := (Policy.matched_nil rules request _).symm

theorem found?_congr (hc : t.candidates = s.candidates) : t.found? = s.found? := by
  funext v
  unfold found? probe?
  rw [hc]

/-- A change that leaves the verdicts, the probes and what was adopted alone, and resolves nothing. -/
theorem Backed.keep (h : s.Backed rules request session asked) (hacc : t.Accounted request session (asked ++ more))
    (hm : t.matching = s.matching) (hs : t.selected = s.selected) (hc : t.candidates = s.candidates)
    (ho : ∀ m, t.outcome = some (.resolved m) → s.outcome = some (.resolved m)) :
    t.Backed rules request session (asked ++ more) := by
  refine ⟨hacc, fun m hsel => ?_, fun m hout => ?_⟩
  · obtain ⟨matcher, v, hfor⟩ := h.adopted m (hs ▸ hsel)
    exact ⟨matcher, v, hfor.mono fun v o hv => by rw [found?_congr hc, hv]⟩
  · obtain ⟨selected, hsel, rfl⟩ := h.resolved m (ho m hout)
    exact ⟨selected, hs.trans hsel, by rw [handedOut, handedOut, hm]⟩

/-- Where nothing new is listed, the matches are still those of the latest listing. -/
theorem Standing.keep (h : s.Standing rules request session asked) (hb : t.Backed rules request session (asked ++ more))
    (hl : VersionChain.listed more = []) (hm : t.matching = s.matching) (hc : t.candidates = s.candidates) :
    t.Standing rules request session (asked ++ more) := by
  have hanswer : t.answer = s.answer := by
    funext v
    rw [answer, answer, found?_congr hc]
  have hlatest : latest (asked ++ more) = latest asked := by
    rw [latest, listed_append, hl, List.append_nil]
    rfl
  exact ⟨hb, by rw [hm, hanswer, hlatest, h.matching]⟩

/-! ## What one listing leads to -/

/-- The second state comes from the first one by a listing that is offered to the standard policy, and the verdicts come to the
digest. -/
structure Offers (rules : Rules) (request : Request) (versions : List String) (s t : RequestState) (d : Digest) : Prop where
  played : Digest.play t.answer versions (Policy.standardSelect rules (Candidate.offer request versions) request)
    { selected := s.selected, result := s.outcome } = d
  mirrors : s.Mirrors t { d with result := d.concluded }

theorem offers_select (hfit : s.ProbesFit) (hreq : s.request = request) (rules : Rules) (turn : Nat) (versions : List String) :
    ∃ d, Offers rules request versions s (s.select (.standard rules) turn versions) d := by
  have hmirrors := mirrors_select_again hfit (.standard rules) turn versions (agreesWith_answer _)
  rw [hreq] at hmirrors
  exact ⟨_, rfl, hmirrors⟩

namespace Offers

variable {versions : List String} {d : Digest}

/-- The matches are those of the listing. -/
theorem matching (h : Offers rules request versions s t d) : t.matching = Policy.matched rules request t.answer versions := by
  rw [h.mirrors.matching, ← h.played, Digest.matching_play]
  exact List.nil_append _

/-- What was adopted before is kept. -/
theorem kept (h : Offers rules request versions s t d) {m : Metadata} (hm : s.selected = some m) : t.selected = some m := by
  rw [h.mirrors.selected, ← h.played]
  exact Digest.selected_play versions _ hm

/-- Where nothing was adopted before, what is adopted comes from a match in the listing. -/
theorem adopts (h : Offers rules request versions s t d) (hlisted : versions ∈ VersionChain.listed asked)
    (hnone : s.selected = none) {m : Metadata} (hm : t.selected = some m) :
    ∃ matcher, ∃ v ∈ t.matching, t.AdoptedFor rules request asked m matcher v := by
  have hd : Policy.standardDigest rules request versions t.answer s.outcome = d := by
    rw [← h.played, hnone]
    rfl
  rw [h.mirrors.selected, ← hd] at hm
  obtain ⟨matcher, hmatcher, before, v, after, hadopts⟩ := Policy.adopts_of_selected hm
  rw [hd] at hadopts
  obtain ⟨haccepts, hallowed⟩ : matcher.accepts ⟨v⟩ = true ∧ rules.rejects ⟨v⟩ = false := by
    simpa [Policy.admits] using hadopts.admitted
  refine ⟨matcher, v, ?_, {
    readable := hmatcher
    listed := ⟨versions, hlisted, hadopts.listed⟩
    known := (h.mirrors.found v).mpr (Or.inr hadopts.asked)
    metadata := hadopts.metadata
    selected := by simp [Policy.selects, Policy.wants, haccepts, hallowed, hadopts.metadata, hadopts.fits] }⟩
  rw [h.mirrors.matching, hadopts.matching]
  simp

/-- What is adopted is the outcome. -/
theorem outcome (h : Offers rules request versions s t d) {m : Metadata} (hm : t.selected = some m) :
    t.outcome = some (.resolved (t.handedOut m)) := by
  have hd : d.selected = some m := h.mirrors.selected.symm.trans hm
  rw [h.mirrors.outcome, Digest.concluded, hd, handedOut, h.mirrors.matching]

/-- Nothing else is resolved. -/
theorem exists_selected (h : Offers rules request versions s t d)
    (hbefore : ∀ m, s.outcome = some (.resolved m) → ∃ selected, s.selected = some selected) {m : Metadata}
    (hm : t.outcome = some (.resolved m)) : ∃ selected, t.selected = some selected := by
  cases hs : t.selected with
  | some selected => exact ⟨selected, rfl⟩
  | none =>
    -- what was resolved before was adopted before, and would be kept
    have hnothing : d.NothingResolved := by
      rw [← h.played]
      refine Digest.NothingResolved.play t.answer versions _ fun m hres => ?_
      obtain ⟨selected, hsel⟩ := hbefore m hres
      cases (h.kept hsel).symm.trans hs
    have hd : d.selected = none := h.mirrors.selected.symm.trans hs
    rw [h.mirrors.outcome, Digest.concluded, hd] at hm
    exact absurd hm (hnothing m)

end Offers

/-- Where the first state has adopted nothing, what the second one has adopted is of one of its matches, and is its outcome. -/
def TakesUp (rules : Rules) (request : Request) (asked : History) (s t : RequestState) : Prop :=
  s.selected = none → ∀ m, t.selected = some m →
    t.outcome = some (.resolved (t.handedOut m)) ∧
      ∃ matcher, ∃ v ∈ t.matching, t.AdoptedFor rules request asked m matcher v

/-- Offering the latest listing leads to a state that stands by it. -/
theorem Backed.select (h : s.Backed rules request session asked) (turn : Nat) {versions : List String}
    (hlatest : (VersionChain.listed asked).getLast? = some versions) :
    ∃ lookups, (s.select (.standard rules) turn versions).Standing rules request session (asked ++ lookups) ∧
      TakesUp rules request (asked ++ lookups) s (s.select (.standard rules) turn versions) := by
  obtain ⟨lookups, hadv⟩ := select_advances h.accounted.fit (.standard rules) turn versions
  obtain ⟨d, hoffers⟩ := offers_select h.accounted.fit h.accounted.about rules turn versions
  have hacc := h.accounted.advance hadv
  generalize s.select (.standard rules) turn versions = t at hadv hoffers hacc ⊢
  have hlookups : VersionChain.listed (asked ++ lookups) = VersionChain.listed asked := by
    rw [listed_append, hadv.listed_eq, List.append_nil]
  have hmem : versions ∈ VersionChain.listed (asked ++ lookups) := by
    rw [hlookups]
    exact List.mem_of_getLast? hlatest
  have hmatching : t.matching = Policy.matched rules request t.answer (latest (asked ++ lookups)) := by
    rw [latest, hlookups, hlatest]
    exact hoffers.matching
  refine ⟨lookups, ⟨⟨hacc, fun m hm => ?_, fun m hm => ?_⟩, hmatching⟩, fun hnone m hm =>
    ⟨hoffers.outcome hm, hoffers.adopts hmem hnone hm⟩⟩
  · cases hs : s.selected with
    | none =>
      obtain ⟨matcher, v, -, hfor⟩ := hoffers.adopts hmem hs hm
      exact ⟨matcher, v, hfor⟩
    | some m' =>
      obtain rfl : m' = m := Option.some.inj ((hoffers.kept hs).symm.trans hm)
      obtain ⟨matcher, v, hfor⟩ := h.adopted m' hs
      exact ⟨matcher, v, hfor.mono fun v o hv => (hadv.known v o hv).1⟩
  · obtain ⟨selected, hsel⟩ := hoffers.exists_selected
      (fun m hres => (h.resolved m hres).imp fun _ hsel => hsel.1) hm
    have hout := hoffers.outcome hsel
    exact ⟨selected, hsel, Lookup.resolved.inj (Option.some.inj (hm.symm.trans hout))⟩

/-! ## Any number of steps -/

/-- What was adopted before is not taken up again. -/
theorem takesUp_of_selected_eq (h : t.selected = s.selected) : TakesUp rules request asked s t := by
  intro hnone m hm
  nomatch hm.symm.trans (h.trans hnone)

/-- Every step keeps what a state stands by. -/
theorem Standing.step (h : s.Standing rules request session asked) (turn : Nat) :
    ∃ more, (s.resolve (.standard rules) turn).2.Standing rules request session (asked ++ more) ∧
      TakesUp rules request (asked ++ more) s (s.resolve (.standard rules) turn).2 := by
  obtain ⟨more, -, hacc, -, hnone⟩ := h.accounted.resolve (.standard rules) turn
  have hbacked : s.afterListing.Backed rules request session (asked ++ more) :=
    h.toBacked.keep hacc rfl rfl rfl fun m hm => hm
  rcases resolve_cases (.standard rules) turn s with ⟨f, hl, ht⟩ | ⟨versions, hl, ht⟩ | ⟨hl, ht⟩ <;> rw [ht]
  · have hacc' : (s.afterListing.failing f).Accounted request session (asked ++ more) := by
      have h1 : s.afterListing.Advances [] (s.afterListing.failing f) := .of_eq hacc.fit rfl rfl rfl rfl
      simpa using hacc.advance h1
    have hb := h.toBacked.keep hacc' rfl rfl rfl nofun
    exact ⟨more, h.keep hb (hnone fun versions hv => nomatch hl.symm.trans hv) rfl rfl, takesUp_of_selected_eq rfl⟩
  · obtain ⟨lookups', hstands, htakes⟩ := hbacked.select turn (hacc.getLast?_listed hl)
    rw [List.append_assoc] at hstands htakes
    exact ⟨more ++ lookups', hstands, htakes⟩
  · exact ⟨more, h.keep hbacked (hnone fun versions hv => nomatch hl.symm.trans hv) rfl rfl, takesUp_of_selected_eq rfl⟩

theorem standing_atStep (rules : Rules) (turn : Nat) (request : Request) (session : Session) (n : Nat) :
    ∃ asked, (atStep (.standard rules) turn request session n).2.Standing rules request session asked := by
  have hstep : ∀ (s : RequestState) turn, (∃ asked, s.Standing rules request session asked) →
      ∃ asked, (s.resolve (.standard rules) turn).2.Standing rules request session asked := by
    rintro s turn ⟨asked, h⟩
    obtain ⟨more, h, -⟩ := h.step turn
    exact ⟨asked ++ more, h⟩
  exact atStep_induction ⟨[], standing_start rules request session⟩ hstep turn n

/-- After any number of steps, a state stands by the latest listing and by what was adopted, and the last step has taken up what is
adopted unless that was so before. -/
theorem standing_last (rules : Rules) (turn : Nat) (request : Request) (session : Session) (n : Nat) :
    ∃ asked, (atStep (.standard rules) turn request session n).2.Standing rules request session asked ∧
      ∀ k, n = k + 1 → TakesUp rules request asked (atStep (.standard rules) turn request session k).2
        (atStep (.standard rules) turn request session n).2 := by
  cases n with
  | zero => exact ⟨[], standing_start rules request session, nofun⟩
  | succ k =>
    obtain ⟨asked, h⟩ := standing_atStep rules turn request session k
    obtain ⟨more, hstands, htakes⟩ := h.step (atStep (.standard rules) turn request session k).1
    exact ⟨asked ++ more, hstands, fun _ hk => Nat.succ.inj hk ▸ htakes⟩

/-! ## How often a version is among the matches -/

theorem chosen_ne (versions : List String) (m : Metadata) : Metadata.chosen versions m ≠ m := by
  intro h
  have hsize := congrArg sizeOf h
  simp at hsize

/-- There is one match just if one version is matched, and not more than once. -/
theorem length_eq_one_iff_nodup {versions : List String} :
    versions.length = 1 ↔ versions.Nodup ∧ ∃! v, v ∈ versions := by
  constructor
  · intro h
    obtain ⟨v, rfl⟩ := List.length_eq_one_iff.mp h
    exact ⟨List.nodup_singleton v, v, by simp, by simp⟩
  · rintro ⟨hnodup, v, hv, hall⟩
    have hmem : ∀ w, w ∈ versions ↔ w ∈ [v] := by
      intro w
      rw [List.mem_singleton]
      exact ⟨hall w, fun hw => hw ▸ hv⟩
    exact ((List.perm_ext_iff_of_nodup hnodup (List.nodup_singleton v)).mpr hmem).length_eq

/-- Metadata is handed out as it is just if one version is matched, and not more than once. -/
theorem handedOut_eq_iff {s : RequestState} {m : Metadata} : s.handedOut m = m ↔ s.matching.Nodup ∧ ∃! v, v ∈ s.matching := by
  rw [← length_eq_one_iff_nodup, handedOut]
  by_cases h : s.matching.length = 1
  · simp [h]
  · simp [h, chosen_ne]

/-- Matches are repeated just as the latest listing repeats them. After any number of steps, a selector of several versions has
matched every version that is admitted as often as it was listed latest, and a selector of one version has matched one at most. When
metadata is adopted, it is handed out as it is just if one version is matched, and not more than once; else it is wrapped with all
matches. -/
theorem matches_repeat_as_listed (rules : Rules) (turn : Nat) (request : Request) (session : Session) (n : Nat) :
    let t := (atStep (.standard rules) turn request session n).2
    ∃ asked, t.visit.session = session.after asked ∧
      (match Matcher.ofSelector request.selector with
        | .error _ => t.matching = []
        | .ok matcher =>
          if matcher.isUnique then t.matching = [] ∨ ∃ v ∈ latest asked, t.matching = [v]
          else t.matching.Perm ((latest asked).filter fun v => Policy.admits matcher rules ⟨v⟩)) ∧
      (t.matching.Nodup ↔ ∀ matcher, Matcher.ofSelector request.selector = .ok matcher → matcher.isUnique = false →
        ((latest asked).filter fun v => Policy.admits matcher rules ⟨v⟩).Nodup) ∧
      ∀ k m, n = k + 1 → (atStep (.standard rules) turn request session k).2.selected = none → t.selected = some m →
        t.outcome = some (.resolved (t.handedOut m)) ∧
        (t.handedOut m = m ↔ t.matching.Nodup ∧ ∃! v, v ∈ t.matching) ∧
        (t.handedOut m ≠ m → (t.handedOut m).allVersions? = some t.matching) := by
  intro t
  obtain ⟨asked, hstands, htakes⟩ := standing_last rules turn request session n
  have hmatching : t.matching = Policy.matched rules request t.answer (latest asked) := hstands.matching
  refine ⟨asked, hstands.accounted.visit.session, ?_, ?_, fun k m hk hnone hm => ⟨(htakes k hk hnone m hm).1, handedOut_eq_iff, ?_⟩⟩
  · cases hsel : Matcher.ofSelector request.selector with
    | error e => exact hmatching.trans (Policy.matched_of_error hsel)
    | ok matcher =>
      dsimp only
      rw [hmatching]
      by_cases hu : matcher.isUnique = true
      · rw [if_pos hu]
        exact Policy.matched_of_unique hsel hu rules t.answer (latest asked)
      · rw [if_neg hu]
        exact Policy.matched_perm hsel (by simpa using hu)
  · constructor
    · intro hnodup matcher hsel hu
      rw [hmatching] at hnodup
      exact (Policy.matched_perm hsel hu).nodup_iff.mp hnodup
    · intro hlisted
      rw [hmatching]
      cases hsel : Matcher.ofSelector request.selector with
      | error e => simp [Policy.matched_of_error hsel]
      | ok matcher =>
        cases hu : matcher.isUnique with
        | false => exact (Policy.matched_perm hsel hu).nodup_iff.mpr (hlisted matcher hsel hu)
        | true =>
          rcases Policy.matched_of_unique hsel hu rules t.answer (latest asked) with h | ⟨v, -, h⟩ <;> simp [h]
  · intro hne
    have hlength : t.matching.length ≠ 1 := fun h => hne (if_pos h)
    rw [handedOut, if_neg hlength]
    rfl

/-- A repository that lists its only version twice. -/
def repeating : Session where
  repository := .ofCatalogues "r" (({ authoritative := true } : Catalogue).putModules ⟨"g", "n"⟩ ["1.0", "1.0"]) {}

/-- There, a range matches that version twice, and its metadata is wrapped although no other version is matched. -/
theorem not_all_matches_distinct :
    ¬∀ (rules : Rules) (turn : Nat) (request : Request) (session : Session) (n : Nat),
      let t := (atStep (.standard rules) turn request session (n + 1)).2
      t.matching.Nodup ∧ ∀ m, (atStep (.standard rules) turn request session n).2.selected = none → t.selected = some m →
        (t.outcome = some (.resolved m) ↔ ∃! v, v ∈ t.matching) ∧
        ((¬∃! v, v ∈ t.matching) → t.outcome = some (.resolved (.chosen t.matching m))) := by
  intro h
  have hmatching : (atStep (.standard {}) 0 ⟨"g", "n", "[1.0,2.0]"⟩ repeating 1).2.matching = ["1.0", "1.0"] := by
    rw [Policy.standard_eq]
    decide +kernel
  have hnodup := (h {} 0 ⟨"g", "n", "[1.0,2.0]"⟩ repeating 0).1
  rw [hmatching] at hnodup
  exact absurd hnodup (by decide)

/-! ## Whether a resolved version is among the matches -/

/-- The version that is adopted is the one that the metadata is of. -/
theorem AdoptedFor.version_eq {m : Metadata} {matcher : Matcher} {v : String} (h : s.AdoptedFor rules request asked m matcher v)
    (hacc : s.Accounted request session asked) (hanswers : session.repository.AnswersAsAsked) : m.id = request.component v := by
  obtain ⟨tier, history, hr⟩ := hacc.exists_answer h.known h.metadata
  exact hanswers tier history _ _ m hr

@[simp] theorem id_handedOut (s : RequestState) (m : Metadata) : (s.handedOut m).id = m.id := by
  unfold handedOut
  split <;> rfl

/-- A resolved version is one of the matches just while the latest listing leads to it. After any number of steps, what is resolved
is the metadata that was adopted, wrapped with the matches of the latest listing unless there is just one. It is of a version that
is selected; so it is of a match when it is adopted, and later as long as it is listed and, where one version is asked for, no newer
one is selected or fails. -/
theorem resolved_matched_iff (rules : Rules) (turn : Nat) (request : Request) {session : Session}
    (hanswers : session.repository.AnswersAsAsked) (n : Nat) {m : Metadata}
    (hm : (atStep (.standard rules) turn request session n).2.outcome = some (.resolved m)) :
    let t := (atStep (.standard rules) turn request session n).2
    ∃ asked matcher selected, t.visit.session = session.after asked ∧ Matcher.ofSelector request.selector = .ok matcher ∧
      t.matching = Policy.matched rules request (metadataAfter asked) (latest asked) ∧
      t.selected = some selected ∧ m = t.handedOut selected ∧ m.id = request.component m.id.version ∧
      Policy.selects matcher rules (metadataAfter asked m.id.version) m.id.version = true ∧
      (m.id.version ∈ t.matching ↔ Policy.LeadsTo matcher rules (metadataAfter asked) (latest asked) m.id.version) ∧
      (matcher.isUnique = false → (m.id.version ∈ t.matching ↔ m.id.version ∈ latest asked)) ∧
      ∀ k, n = k + 1 → (atStep (.standard rules) turn request session k).2.selected = none → m.id.version ∈ t.matching := by
  intro t
  obtain ⟨asked, hstands, htakes⟩ := standing_last rules turn request session n
  have hacc : t.Accounted request session asked := hstands.accounted
  have hmatching : t.matching = Policy.matched rules request t.answer (latest asked) := hstands.matching
  obtain ⟨selected, hselected, rfl⟩ : ∃ selected, t.selected = some selected ∧ m = t.handedOut selected := hstands.resolved m hm
  obtain ⟨matcher, v, hfor⟩ : ∃ matcher v, t.AdoptedFor rules request asked selected matcher v :=
    hstands.adopted selected hselected
  have hid : selected.id = request.component v := hfor.version_eq hacc hanswers
  have hversion : (t.handedOut selected).id.version = v := by
    rw [id_handedOut, hid]
    rfl
  have hmem : v ∈ t.matching ↔ Policy.LeadsTo matcher rules t.answer (latest asked) v := by
    rw [hmatching, Policy.mem_matched]
    constructor
    · rintro ⟨matcher', hsel, -, hleads⟩
      rw [hfor.readable] at hsel
      cases hsel
      exact hleads
    · intro hleads
      exact ⟨matcher, hfor.readable, hfor.selected, hleads⟩
  refine ⟨asked, matcher, selected, ?_⟩
  rw [← hacc.answer_eq, hversion]
  refine ⟨hacc.visit.session, hfor.readable, hmatching, hselected, rfl, by rw [id_handedOut, hid], hfor.selected, hmem,
    fun hu => ?_, fun k hk hnone => ?_⟩
  · rw [hmem, Policy.leadsTo_iff_of_not_unique hu]
  · obtain ⟨-, matcher', w, hw, hfor'⟩ := htakes k hk hnone selected hselected
    have hsame := hid.symm.trans (hfor'.version_eq hacc hanswers)
    rwa [show v = w from congrArg Component.version hsame]

/-- A repository whose nearby tier has a version, not for certain, that its remote tier does not list. -/
def withdrawn : Session where
  repository := .ofCatalogues "r" (({} : Catalogue).putModules ⟨"g", "n"⟩ ["1.0"])
    (({} : Catalogue).putListing ⟨"g", "n"⟩ (.versions ["2.0"]))

theorem answersAsAsked_withdrawn : withdrawn.repository.AnswersAsAsked :=
  (Repository.isPlain_ofCatalogues ((Catalogue.filed_empty false).putModules _ _) ((Catalogue.filed_empty false).putListing _ _)
    "r").answersAsAsked

/-- There, the second listing supersedes the matches of the first one, but what was adopted from the first is still resolved. -/
theorem resolve_withdrawn :
    ∃ m, (atStep (.standard {}) 0 ⟨"g", "n", "1.0"⟩ withdrawn 2).2.outcome = some (.resolved m) ∧ m.allVersions? = some [] ∧
      (atStep (.standard {}) 0 ⟨"g", "n", "1.0"⟩ withdrawn 2).2.matching = [] := by
  have hshown : (atStep (.standard {}) 0 ⟨"g", "n", "1.0"⟩ withdrawn 2).2.resolved.metadata?.map Metadata.allVersions? =
        some (some []) ∧
      (atStep (.standard {}) 0 ⟨"g", "n", "1.0"⟩ withdrawn 2).2.matching = [] := by
    rw [Policy.standard_eq]
    decide +kernel
  obtain ⟨m, hm, hall⟩ := Option.map_eq_some_iff.mp hshown.1
  exact ⟨m, LookupOutcome.metadata?_eq_some_iff.mp hm, hall, hshown.2⟩

/-- So a resolved version need not be among the matches, and metadata may be wrapped without its own version. -/
theorem not_all_resolved_matched :
    ¬∀ (rules : Rules) (turn : Nat) (request : Request) (session : Session) (n : Nat),
      session.repository.AnswersAsAsked →
        let t := (atStep (.standard rules) turn request session (n + 1)).2
        ∀ m, t.outcome = some (.resolved m) →
          m.id.version ∈ t.matching ∧ ∀ all, m.allVersions? = some all → all = t.matching ∧ m.id.version ∈ all := by
  intro h
  obtain ⟨m, hout, -, hmatching⟩ := resolve_withdrawn
  have hmem := (h {} 0 ⟨"g", "n", "1.0"⟩ withdrawn 1 answersAsAsked_withdrawn m hout).1
  rw [hmatching] at hmem
  nomatch hmem

/-- In that repository, the version is not listed any more. -/
theorem resolved_matched_iff_withdrawn :
    let t := (atStep (.standard {}) 0 ⟨"g", "n", "1.0"⟩ withdrawn 2).2
    withdrawn.repository.AnswersAsAsked ∧ ∃ m, t.outcome = some (.resolved m) ∧ m.allVersions? = some [] ∧
      ∃ asked matcher, t.visit.session = withdrawn.after asked ∧ Matcher.ofSelector "1.0" = .ok matcher ∧
        ¬Policy.LeadsTo matcher {} (metadataAfter asked) (latest asked) m.id.version := by
  intro t
  obtain ⟨m, hout, hall, hmatching⟩ := resolve_withdrawn
  obtain ⟨asked, matcher, -, hsession, hsel, -, -, -, -, -, hmem, -⟩ :=
    resolved_matched_iff {} 0 ⟨"g", "n", "1.0"⟩ answersAsAsked_withdrawn 2 hout
  refine ⟨answersAsAsked_withdrawn, m, hout, hall, asked, matcher, hsession, hsel, fun hleads => ?_⟩
  have hmatched := hmem.mpr hleads
  rw [hmatching] at hmatched
  nomatch hmatched

end RequestState

end VersionChain
