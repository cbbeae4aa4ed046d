import VersionChain.Proofs.Probing
import VersionChain.Proofs.Remote

/-!
# No metadata is fetched in vain

Under the standard policy, the listing and the answers tell which versions are consulted: they go from the newest version down to the
first that is good enough. So nothing is fetched for a version that is excluded, or is older than the one that is adopted.
-/

namespace VersionChain

/-! ## Lists up to a first element -/

/-- A list up to the first element of a kind, with that element. -/
def upToFirst {α : Type} (p : α → Bool) : List α → List α
  | [] => []
  | x :: xs => x :: if p x then [] else upToFirst p xs

section

variable {α : Type} {p : α → Bool}

theorem upToFirst_cons_of_pos {x : α} (h : p x = true) (xs : List α) : upToFirst p (x :: xs) = [x] := by
  rw [upToFirst, if_pos h]

theorem upToFirst_cons_of_neg {x : α} (h : ¬p x = true) (xs : List α) : upToFirst p (x :: xs) = x :: upToFirst p xs := by
  rw [upToFirst, if_neg h]

theorem upToFirst_isPrefix (p : α → Bool) (xs : List α) : upToFirst p xs <+: xs := by
  induction xs with
  | nil => exact List.prefix_refl _
  | cons x xs ih =>
    by_cases h : p x = true
    · rw [upToFirst_cons_of_pos h]
      exact List.prefix_append [x] xs
    · rw [upToFirst_cons_of_neg h]
      exact (List.prefix_cons_inj x).mpr ih

/-- In a list in order, what comes up to the first element of the kind comes before every element of the kind. -/
theorem rel_of_mem_upToFirst {R : α → α → Prop} (hrefl : ∀ x, R x x) {xs : List α} (hsorted : xs.Pairwise R) {x y : α}
    (hx : x ∈ upToFirst p xs) (hy : y ∈ xs) (hp : p y = true) : R x y := by
  induction xs with
  | nil => nomatch hx
  | cons z zs ih =>
    obtain ⟨hz, hsorted⟩ := List.pairwise_cons.mp hsorted
    by_cases h : p z = true
    · rw [upToFirst_cons_of_pos h, List.mem_singleton] at hx
      subst hx
      rcases List.mem_cons.mp hy with rfl | hy
      · exact hrefl y
      · exact hz y hy
    · rw [upToFirst_cons_of_neg h] at hx
      have hlater : y ∈ zs := (List.mem_cons.mp hy).resolve_left fun heq => h (heq ▸ hp)
      rcases List.mem_cons.mp hx with rfl | hx
      · exact hz y hlater
      · exact ih hsorted hx hlater

end

namespace Digest

variable {answer : String → LookupOutcome}

/-- What is adopted is the metadata of the first match that has any. -/
def AdoptsFirst (answer : String → LookupOutcome) (d : Digest) : Prop :=
  d.selected = d.matching.findSome? fun v => (answer v).metadata?

theorem AdoptsFirst.takeMatch {d : Digest} (h : d.AdoptsFirst answer) (version : String) :
    (d.takeMatch answer version).AdoptsFirst answer := by
  unfold AdoptsFirst at h ⊢
  rw [matching_takeMatch, List.findSome?_append, ← h]
  cases hsel : d.selected with
  | some m =>
    rw [takeMatch_of_selected (by rw [hsel]; rfl), hsel]
    rfl
  | none =>
    cases hm : (answer version).metadata? with
    | some m => rw [takeMatch_of_metadata hsel hm]; simp [hm]
    | none => rw [takeMatch_of_no_metadata hsel hm]; simp [hm, hsel]

/-- Whatever a policy does, a selection adopts the first match that has metadata. -/
theorem AdoptsFirst.play (offered : List String) (sel : Selection) :
    ∀ {d : Digest}, d.AdoptsFirst answer → (d.play answer offered sel).AdoptsFirst answer := by
  induction sel with
  | done => intro d h; exact h
  | report verdict next ih =>
    intro d h
    refine ih ?_
    cases verdict with
    | isMatch component => exact h.takeMatch component.version
    | notMatched | rejected | noMatch | failed => exact h
  | inspect position next ih =>
    intro d h
    unfold Digest.play
    cases offered[position]? with
    | none => exact ih .unknown h
    | some version => exact ih _ h

/-- Of several matches, those up to the first one with metadata are asked about. -/
theorem asked_foldl_takeMatch (answer : String → LookupOutcome) (versions : List String) :
    ∀ {d : Digest}, d.selected = none →
      (versions.foldl (takeMatch answer) d).asked = d.asked ++ upToFirst (fun v => (answer v).metadata?.isSome) versions := by
  induction versions with
  | nil => intro d _; exact (List.append_nil _).symm
  | cons v versions ih =>
    intro d h
    rw [List.foldl_cons]
    cases hm : (answer v).metadata? with
    | some m =>
      rw [takeMatch_of_metadata h hm, foldl_takeMatch_of_selected versions (by rfl), upToFirst_cons_of_pos (by simp [hm])]
    | none =>
      rw [takeMatch_of_no_metadata h hm, ih (by exact h), upToFirst_cons_of_neg (by simp [hm])]
      simp

theorem take_of_passesOver {x : Verdict} (h : x.passesOver = true) (d : Digest) : d.take answer x = d := by
  cases x with
  | notMatched | rejected => rfl
  | isMatch | noMatch | failed => nomatch h

end Digest

/-! ## What the standard policy consults -/

/-- Whether the metadata could not be had, for a reason that is told. -/
def LookupOutcome.isFailure (o : LookupOutcome) : Bool :=
  match o.result with
  | some (.failed _) => true
  | _ => false

theorem LookupOutcome.isFailure_iff {o : LookupOutcome} : o.isFailure = true ↔ ∃ f, o.result = some (.failed f) := by
  unfold isFailure
  rcases o.result with _ | _ | _ | _ <;> simp

namespace Policy

variable {matcher : Matcher} {rules : Rules} {request : Request} {versions offered : List String}
  {answer : String → LookupOutcome}

/-- The versions that the selector asks for by their text and that no rule excludes, from the newest to the oldest. -/
def admitted (matcher : Matcher) (rules : Rules) (versions : List String) : List String :=
  (newestFirst versions).filter fun v => admits matcher rules ⟨v⟩

/-- The versions that are inspected for a selector that needs metadata: from the newest to the first that is selected or fails. -/
def inspectedOf (matcher : Matcher) (rules : Rules) (answer : String → LookupOutcome) (versions : List String) : List String :=
  upToFirst (fun v => selects matcher rules (answer v) v || (answer v).isFailure) (newestFirst versions)

/-- Which versions of a listing are matched and consulted. Of those that the selector asks for by their text, the first with metadata
is the last to be consulted, or the first of all where one is asked for. Where the selector needs metadata, what is inspected is
consulted, and the match among it once more, to be adopted. -/
def GoesThrough (rules : Rules) (request : Request) (answer : String → LookupOutcome)
    (versions matching probed : List String) : Prop :=
  match Matcher.ofSelector request.selector with
  | .error _ => matching = [] ∧ probed = []
  | .ok matcher =>
    if matcher.needsMetadata then
      matching = (inspectedOf matcher rules answer versions).filter (fun v => selects matcher rules (answer v) v) ∧
        probed = inspectedOf matcher rules answer versions ++ matching
    else
      matching = (if matcher.isUnique then (admitted matcher rules versions).take 1 else admitted matcher rules versions) ∧
        probed = upToFirst (fun v => matcher.isUnique || (answer v).metadata?.isSome) (admitted matcher rules versions)

theorem admittedNewestFirst_eq (matcher : Matcher) (rules : Rules) (request : Request) (versions : List String) :
    admittedNewestFirst matcher rules request versions = admitted matcher rules versions := by
  rw [admitted, ← map_version_newestFirst request versions, List.filter_map]
  rfl

theorem accepts_of_needsMetadata (hn : matcher.needsMetadata = true) (v : Version) : matcher.accepts v = true := by
  obtain ⟨status, rfl⟩ := Matcher.eq_latest_of_needsMetadata hn
  rfl

theorem passesOver_judge (hu : matcher.isUnique = true) {o : LookupOutcome} {c : Candidate}
    (h : (judge matcher rules o c).settles matcher = false) : (judge matcher rules o c).passesOver = true := by
  have hjudges := judges_judge matcher rules o c
  generalize judge matcher rules o c = verdict at h hjudges
  cases hjudges with
  | notMatched | rejected => rfl
  | failed => nomatch h
  | isMatch => nomatch hu.symm.trans h

/-- A walk asks about its first candidate where metadata is needed, takes in the verdict on it, and goes on unless that settles the
selection. -/
theorem play_walk_cons {c : Candidate} (hc : offered[c.position]? = some c.component.version) (cs : List Candidate) (found : Bool)
    (d : Digest) :
    d.play answer offered (walk matcher rules found (c :: cs)) =
      ((if matcher.accepts c.version && matcher.needsMetadata then d.note c.component.version else d).take answer
        (judge matcher rules (answer c.component.version) c)).play answer offered
          (if (judge matcher rules (answer c.component.version) c).settles matcher then .done
            else walk matcher rules (found || (judge matcher rules (answer c.component.version) c).isAMatch) cs) := by
  cases ha : matcher.accepts c.version <;> cases hn : matcher.needsMetadata <;>
    simp [walk, judge, ha, hn, goOn_eq, Digest.play, hc]

/-- Where the text of a version is enough to judge it, a walk for one version takes the first that is admitted. -/
theorem play_walk_of_unique (hu : matcher.isUnique = true) (hn : matcher.needsMetadata = false) {cs : List Candidate}
    (hp : Placed offered cs) (d : Digest) :
    d.play answer offered (walk matcher rules false cs) =
      match (cs.map (·.component.version)).filter fun v => admits matcher rules ⟨v⟩ with
      | [] => { d with result := some .missing }
      | v :: _ => d.takeMatch answer v := by
  induction cs with
  | nil => rfl
  | cons c cs ih =>
    have hselects : selects matcher rules (answer c.component.version) c.component.version =
        admits matcher rules ⟨c.component.version⟩ := by
      simp [selects, wants, admits, hn]
    rw [play_walk_cons (hp c List.mem_cons_self), hn, Bool.and_false, if_neg Bool.false_ne_true, List.map_cons]
    by_cases ha : admits matcher rules ⟨c.component.version⟩ = true
    · have hs := hselects.trans ha
      rw [if_pos (settles_judge_iff.mpr (Or.inl ⟨hu, hs⟩)), judge_eq_isMatch_iff.mpr ⟨rfl, selectable_iff.mpr hs⟩,
        List.filter_cons, if_pos ha]
      rfl
    · have hgoes : ¬(judge matcher rules (answer c.component.version) c).settles matcher = true := by
        intro h
        rcases settles_judge_iff.mp h with ⟨-, hs⟩ | ⟨-, hneeds, -⟩
        · exact ha (hselects.symm.trans hs)
        · exact absurd hneeds (Bool.eq_false_iff.mp hn)
      have hpasses := passesOver_judge hu (Bool.eq_false_iff.mpr hgoes)
      rw [if_neg hgoes, Digest.take_of_passesOver hpasses, (not_of_passesOver hpasses).1, List.filter_cons, if_neg ha]
      exact ih fun x hx => hp x (List.mem_cons_of_mem _ hx)

/-- Where the text of a version is enough to judge it, the matches are what is admitted, and they are asked about up to the first
with metadata; or the first alone is, where one is asked for. -/
theorem standardDigest_of_not_needsMetadata (hsel : Matcher.ofSelector request.selector = .ok matcher)
    (hn : matcher.needsMetadata = false) (rules : Rules) (versions : List String) (answer : String → LookupOutcome)
    (r : Option Lookup) :
    (standardDigest rules request versions answer r).matching =
        (if matcher.isUnique then (admitted matcher rules versions).take 1 else admitted matcher rules versions) ∧
      (standardDigest rules request versions answer r).asked =
        upToFirst (fun v => matcher.isUnique || (answer v).metadata?.isSome) (admitted matcher rules versions) := by
  cases hu : matcher.isUnique with
  | false =>
    rw [standardDigest_several hsel hu, admittedNewestFirst_eq]
    by_cases hnil : admitted matcher rules versions = []
    · simp [hnil, upToFirst]
    · rw [if_neg hnil, Digest.matching_foldl_takeMatch, Digest.asked_foldl_takeMatch _ _ (by rfl)]
      simp
  | true =>
    have hplay : standardDigest rules request versions answer r =
        match admitted matcher rules versions with
        | [] => { result := some .missing }
        | v :: _ => Digest.takeMatch answer { result := r } v := by
      rw [admitted, ← map_version_newestFirst request]
      unfold standardDigest standardSelect
      rw [hsel]
      exact play_walk_of_unique hu hn (placed_newestFirst request versions) { result := r }
    rw [hplay]
    cases admitted matcher rules versions with
    | nil => simp [upToFirst]
    | cons v vs =>
      dsimp only
      rw [Digest.matching_takeMatch, Digest.asked_takeMatch]
      simp [upToFirst]

/-- Where metadata is needed, a candidate ends the walk if its version is selected or its metadata fails. -/
theorem settles_judge_of_needsMetadata (hn : matcher.needsMetadata = true) (rules : Rules) (o : LookupOutcome) (c : Candidate) :
    (judge matcher rules o c).settles matcher = (selects matcher rules o c.component.version || o.isFailure) := by
  rw [Bool.eq_iff_iff, settles_judge_iff, Bool.or_eq_true, LookupOutcome.isFailure_iff]
  simp [Breaks, unique_of_needsMetadata hn, hn, accepts_of_needsMetadata hn]

theorem toList_matched?_judge (matcher : Matcher) (rules : Rules) (answer : String → LookupOutcome) (c : Candidate) :
    (judge matcher rules (answer c.component.version) c).matched?.toList =
      [c.component.version].filter fun v => selects matcher rules (answer v) v := by
  have hmatched : ∀ v, (judge matcher rules (answer c.component.version) c).matched? = some v ↔
      c.component.version = v ∧ selects matcher rules (answer v) v = true := fun _ => matched?_judgeBy
  by_cases hs : selects matcher rules (answer c.component.version) c.component.version = true
  · rw [(hmatched _).mpr ⟨rfl, hs⟩]
    simp [hs]
  · have hnone : (judge matcher rules (answer c.component.version) c).matched? = none := by
      refine Option.eq_none_iff_forall_ne_some.mpr fun v hv => ?_
      obtain ⟨rfl, hselected⟩ := (hmatched v).mp hv
      exact hs hselected
    rw [hnone]
    simp [hs]

/-- Where metadata is needed, a walk asks about every candidate up to the first that is selected or fails. One that is selected is
the match, and is asked about once more. -/
theorem play_walk_of_needsMetadata (hn : matcher.needsMetadata = true) (rules : Rules) (answer : String → LookupOutcome)
    {cs : List Candidate} (hp : Placed offered cs) :
    ∀ {d : Digest}, d.selected = none →
      let inspected := upToFirst (fun v => selects matcher rules (answer v) v || (answer v).isFailure)
        (cs.map (·.component.version))
      (d.play answer offered (walk matcher rules false cs)).matching =
          d.matching ++ inspected.filter (fun v => selects matcher rules (answer v) v) ∧
        (d.play answer offered (walk matcher rules false cs)).asked =
          d.asked ++ inspected ++ inspected.filter (fun v => selects matcher rules (answer v) v) := by
  have hu := unique_of_needsMetadata hn
  induction cs with
  | nil =>
    intro d _
    simp [walk, Digest.play, Digest.take, upToFirst]
  | cons c cs ih =>
    intro d hd
    have hsettles := settles_judge_of_needsMetadata hn rules (answer c.component.version) c
    have hmatched := toList_matched?_judge matcher rules answer c
    rw [play_walk_cons (hp c List.mem_cons_self), accepts_of_needsMetadata hn, hn, Bool.and_true, if_pos rfl]
    by_cases hend : (judge matcher rules (answer c.component.version) c).settles matcher = true
    · rw [if_pos hend, List.map_cons, upToFirst_cons_of_pos (hsettles ▸ hend)]
      dsimp only
      rw [← hmatched]
      refine ⟨Digest.matching_take .., (Digest.asked_take ..).trans ?_⟩
      rw [if_neg (by simp [Digest.note, hd])]
      rfl
    · have hpasses := passesOver_judge hu (Bool.eq_false_iff.mpr hend)
      have hrest := ih (fun x hx => hp x (List.mem_cons_of_mem _ hx)) (d := d.note c.component.version) hd
      have hnot : ¬selects matcher rules (answer c.component.version) c.component.version = true := by
        intro hs
        rw [hsettles, hs] at hend
        exact hend rfl
      rw [if_neg hend, Digest.take_of_passesOver hpasses, (not_of_passesOver hpasses).1, List.map_cons,
        upToFirst_cons_of_neg (hsettles ▸ hend)]
      dsimp only
      rw [List.filter_cons, if_neg hnot]
      exact ⟨hrest.1, hrest.2.trans (by simp [Digest.note])⟩

/-- Where metadata is needed, what is asked about is what is inspected, and then the match. -/
theorem standardDigest_of_needsMetadata (hsel : Matcher.ofSelector request.selector = .ok matcher)
    (hn : matcher.needsMetadata = true) (rules : Rules) (versions : List String) (answer : String → LookupOutcome)
    (r : Option Lookup) :
    (standardDigest rules request versions answer r).matching =
        (inspectedOf matcher rules answer versions).filter (fun v => selects matcher rules (answer v) v) ∧
      (standardDigest rules request versions answer r).asked =
        inspectedOf matcher rules answer versions ++
          (inspectedOf matcher rules answer versions).filter (fun v => selects matcher rules (answer v) v) := by
  have hplay := play_walk_of_needsMetadata hn rules answer (placed_newestFirst request versions) (d := { result := r }) rfl
  rw [map_version_newestFirst] at hplay
  unfold standardDigest standardSelect
  rw [hsel]
  exact hplay

theorem goesThrough_standardDigest (rules : Rules) (request : Request) (versions : List String) (answer : String → LookupOutcome)
    (r : Option Lookup) :
    GoesThrough rules request answer versions (standardDigest rules request versions answer r).matching
      (standardDigest rules request versions answer r).asked := by
  unfold GoesThrough
  cases hsel : Matcher.ofSelector request.selector with
  | error e =>
    rw [standardDigest_error hsel]
    exact ⟨rfl, rfl⟩
  | ok matcher =>
    dsimp only
    by_cases hn : matcher.needsMetadata = true
    · obtain ⟨hmatching, hasked⟩ := standardDigest_of_needsMetadata hsel hn rules versions answer r
      rw [if_pos hn]
      exact ⟨hmatching, by rw [hasked, hmatching]⟩
    · rw [if_neg hn]
      exact standardDigest_of_not_needsMetadata hsel (by simpa using hn) rules versions answer r

theorem adoptsFirst_standardDigest (rules : Rules) (request : Request) (versions : List String) (answer : String → LookupOutcome)
    (r : Option Lookup) : (standardDigest rules request versions answer r).AdoptsFirst answer :=
  Digest.AdoptsFirst.play versions _ rfl

/-- No match that has metadata is newer than anything consulted. -/
theorem GoesThrough.noOlder {matching probed : List String} (h : GoesThrough rules request answer versions matching probed)
    {v w : String} (hv : v ∈ probed) (hw : w ∈ matching) (hm : (answer w).metadata?.isSome = true) : NoOlder v w := by
  have hrefl : ∀ x, NoOlder x x := fun _ => Std.ReflCmp.isLE_rfl
  unfold GoesThrough at h
  cases hsel : Matcher.ofSelector request.selector with
  | error e =>
    rw [hsel] at h
    rw [h.1] at hw
    nomatch hw
  | ok matcher =>
    rw [hsel] at h
    dsimp only at h
    split at h
    · obtain ⟨hmatching, hprobed⟩ := h
      rw [hmatching] at hw
      obtain ⟨hinspected, hselected⟩ := List.mem_filter.mp hw
      have hlooked : v ∈ inspectedOf matcher rules answer versions := by
        rw [hprobed, hmatching, List.mem_append] at hv
        exact hv.elim id List.mem_of_mem_filter
      exact rel_of_mem_upToFirst hrefl (pairwise_newestFirst versions) hlooked ((upToFirst_isPrefix _ _).mem hinspected)
        (by simp [hselected])
    · obtain ⟨hmatching, hprobed⟩ := h
      have hsorted : (admitted matcher rules versions).Pairwise NoOlder := (pairwise_newestFirst versions).filter _
      have hadmitted : w ∈ admitted matcher rules versions := by
        rw [hmatching] at hw
        split at hw
        · exact List.mem_of_mem_take hw
        · exact hw
      rw [hprobed] at hv
      exact rel_of_mem_upToFirst hrefl hsorted hv hadmitted (by simp [hm])

end Policy

namespace RequestState

variable {s : RequestState}

/-! ## A step -/

/-- Where nothing is adopted yet, a listing leads to what the digest says, and what that has asked about is consulted. -/
theorem resolve_listed (hfit : s.ProbesFit) (hnone : s.selected = none) {versions : List String}
    (hl : s.afterListing.listing.state = some (.listed versions)) (rules : Rules) (turn : Nat) :
    let t := (s.resolve (.standard rules) turn).2
    let d := Policy.standardDigest rules s.request versions t.answer s.outcome
    s.Mirrors t { d with result := d.concluded } ∧ d.asked = s.consultedIn (.standard rules) turn := by
  have hstate : (s.resolve (.standard rules) turn).2 = s.afterListing.select (.standard rules) turn versions := by
    rw [resolve_eq, hl]
  have hfit' : s.afterListing.ProbesFit := hfit
  have hmirrors := mirrors_select_standard hfit' hnone rules turn versions (agreesWith_answer _)
  have hasked := asked_play_select hfit' (.standard rules) turn versions
  rw [show s.afterListing.selected = none from hnone] at hasked
  rw [consultedIn, hl, hstate]
  exact ⟨⟨hmirrors.matching, hmirrors.selected, hmirrors.outcome, hmirrors.found⟩, hasked⟩

/-- No metadata is fetched in vain. Where nothing is adopted yet, and the standard policy is asked about a listing after any number of
steps, it goes through the listing from the newest version, no further than to the first that is good enough. The first match with
metadata is adopted, and nothing older is consulted. The repository is asked for the listing, and for what comes of consulting these
versions: only those of which nothing was known are looked up. -/
theorem consults_no_more_than_needed (rules : Rules) (turn : Nat) (request : Request) (session : Session) (n : Nat)
    {versions : List String}
    (hnone : (atStep (.standard rules) turn request session n).2.selected = none)
    (hlisted : (atStep (.standard rules) turn request session (n + 1)).2.listing.state = some (.listed versions)) :
    let s := (atStep (.standard rules) turn request session n).2
    let t := (atStep (.standard rules) turn request session (n + 1)).2
    let probed := s.consultedIn (.standard rules) (atStep (.standard rules) turn request session n).1
    Policy.GoesThrough rules request t.answer versions t.matching probed ∧
    t.selected = t.matching.findSome? (fun v => (t.answer v).metadata?) ∧
    (∀ v ∈ probed, ∀ w ∈ t.matching, (t.answer w).metadata?.isSome = true → Policy.NoOlder v w) ∧
    (∀ v, (t.found? v).isSome = true ↔ (s.found? v).isSome = true ∨ v ∈ probed) ∧
    t.visit.session = (consultAll probed s.afterListing).visit.session ∧
    ∃ listings lookups, t.visit.session = s.visit.session.after (listings ++ lookups) ∧ (∀ a ∈ listings, a.isListing = true) ∧
      ∀ a ∈ lookups, ∃ v ∈ probed, s.found? v = none ∧
        ∃ tier o, a = .lookup tier (request.component v) (request.pinned v) o := by
  intro s t probed
  generalize hturn : (atStep (.standard rules) turn request session n).1 = turn' at probed
  have ht : (s.resolve (.standard rules) turn').2 = t := by rw [← hturn]; rfl
  obtain ⟨asked, hacc⟩ : ∃ asked, s.Accounted request session asked :=
    (standing_atStep rules turn request session n).imp fun _ h => h.accounted
  obtain ⟨listings, hasks, htraced, -⟩ := hacc.listing.resolve s.visit
  obtain ⟨lookups, hadv⟩ := resolve_advances hacc.fit (.standard rules) turn'
  have hdealt := dealtAlike_resolve hacc.fit (.standard rules) turn'
  rw [ht] at hadv hdealt
  have hl : s.afterListing.listing.state = some (.listed versions) := by
    rw [← hadv.listing]
    exact hlisted
  obtain ⟨hmirrors, hasked⟩ := resolve_listed hacc.fit hnone hl rules turn'
  rw [ht, hacc.about] at hmirrors hasked
  have hgoes := Policy.goesThrough_standardDigest rules request versions t.answer s.outcome
  have hadopts := Policy.adoptsFirst_standardDigest rules request versions t.answer s.outcome
  have hfound := hmirrors.found
  rw [Digest.AdoptsFirst, ← hmirrors.selected, ← hmirrors.matching] at hadopts
  rw [← hmirrors.matching, hasked] at hgoes
  rw [hasked] at hfound
  have hsession : t.visit.quiet.session = (consultAll probed s.afterListing).visit.quiet.session :=
    congrArg Visit.session hdealt.visit
  refine ⟨hgoes, hadopts, fun v hv w hw hm => hgoes.noOlder hv hw hm, hfound, hsession, listings, lookups,
    (hasks.trans hadv.visit).session, fun a ha => htraced.isListing a (List.mem_append_right _ ha), fun a ha => ?_⟩
  obtain ⟨v, tier, o, heq, hunknown, hknown⟩ := hadv.exists_lookup ha
  have hconsulted : v ∈ probed := by
    rcases (hfound v).mp hknown with h | h
    · have hbefore : s.found? v = none := hunknown
      rw [hbefore] at h
      nomatch h
    · exact h
  have hrequest : s.afterListing.request = request := hacc.about
  rw [hrequest] at heq
  exact ⟨v, hconsulted, hunknown, tier, o, heq⟩

/-- Of four versions, the newest is out of the range, the next one is missing, and the oldest is excluded. -/
theorem consults_no_more_than_needed_partlyMissing :
    let request : Request := ⟨"g", "n", "[1.0,4.0)"⟩
    let s := (atStep (.standard Resolver.noOnes) 0 request Resolver.partlyMissing 0).2
    let t := (atStep (.standard Resolver.noOnes) 0 request Resolver.partlyMissing 1).2
    s.selected = none ∧ t.listing.state = some (.listed ["1.0", "2.0", "3.0", "4.0"]) ∧
      Policy.GoesThrough Resolver.noOnes request t.answer ["1.0", "2.0", "3.0", "4.0"] ["3.0", "2.0"] ["3.0", "2.0"] ∧
      t.selected = ["3.0", "2.0"].findSome? (fun v => (t.answer v).metadata?) ∧
      ∀ v, (t.found? v).isSome = true ↔ v ∈ ["3.0", "2.0"] := by
  intro request s t
  have hlisted : t.listing.state = some (.listed ["1.0", "2.0", "3.0", "4.0"]) ∧ t.matching = ["3.0", "2.0"] ∧
      s.consultedIn (.standard Resolver.noOnes) 0 = ["3.0", "2.0"] := by
    unfold s t
    rw [Policy.standard_eq]
    decide +kernel
  obtain ⟨hstate, hmatching, hprobed⟩ := hlisted
  obtain ⟨hgoes, hadopted, -, hfound, -⟩ :=
    consults_no_more_than_needed Resolver.noOnes 0 request Resolver.partlyMissing 0 rfl hstate
  have hprobed' : s.consultedIn (.standard Resolver.noOnes) (atStep (.standard Resolver.noOnes) 0 request
      Resolver.partlyMissing 0).1 = ["3.0", "2.0"] := hprobed
  rw [hmatching, hprobed'] at hgoes
  rw [hmatching] at hadopted
  rw [hprobed'] at hfound
  have hstart : ∀ v, ¬(s.found? v).isSome = true := fun _ h => nomatch h
  exact ⟨rfl, hstate, hgoes, hadopted, fun v => (hfound v).trans (or_iff_right (hstart v))⟩

/-- No version there is of a status that its scheme does not have, so that all are inspected for it. -/
example :
    (RequestState.start ⟨"g", "n", "latest.beta"⟩ Resolver.partlyMissing).consultedIn (.standard Resolver.noOnes) 0 =
      ["4.0", "3.0", "2.0", "1.0"] := by
  rw [Policy.standard_eq]
  decide +kernel

end RequestState

end VersionChain
