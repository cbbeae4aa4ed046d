import Mathlib.Data.List.Sort
import VersionChain.Policy.Standard
import VersionChain.Proofs.Digest

/-!
# What the standard policy selects

The standard policy walks through the candidates from the newest to the oldest. For a selector of several versions every admitted
candidate is a match, and the first one with metadata is adopted. A selector of one version stops at its first match, or at the
first candidate whose metadata it needs and cannot get.
-/

namespace VersionChain

namespace Digest

variable {answer : String → LookupOutcome}

theorem takeMatch_of_selected {d : Digest} (h : d.selected.isSome = true) (version : String) :
    d.takeMatch answer version = { d with matching := d.matching ++ [version] } :=
  if_pos h

/-- A match with metadata is adopted. -/
theorem takeMatch_of_metadata {d : Digest} (h : d.selected = none) {version : String} {m : Metadata}
    (hm : (answer version).metadata? = some m) :
    d.takeMatch answer version =
      { d with matching := d.matching ++ [version], asked := d.asked ++ [version], selected := some m } := by
  unfold takeMatch adopt note
  rcases hr : (answer version).result with _ | _ | _ | _ <;> simp_all [LookupOutcome.metadata?, Lookup.metadata?]

/-- A match without metadata leaves what is known of it. -/
theorem takeMatch_of_no_metadata {d : Digest} (h : d.selected = none) {version : String}
    (hm : (answer version).metadata? = none) :
    d.takeMatch answer version =
      { d with
        matching := d.matching ++ [version]
        asked := d.asked ++ [version]
        result := (answer version).result.or d.result } := by
  unfold takeMatch adopt note
  rcases hr : (answer version).result with _ | _ | _ | _ <;> simp_all [LookupOutcome.metadata?, Lookup.metadata?]

/-! ## Several matches in turn -/

theorem foldl_takeMatch_of_selected (versions : List String) :
    ∀ {d : Digest}, d.selected.isSome = true →
      versions.foldl (takeMatch answer) d = { d with matching := d.matching ++ versions } := by
  induction versions with
  | nil => intro d _; simp
  | cons v versions ih =>
    intro d h
    rw [List.foldl_cons, takeMatch_of_selected h, ih (by exact h)]
    simp

theorem matching_foldl_takeMatch (answer : String → LookupOutcome) (versions : List String) :
    ∀ d : Digest, (versions.foldl (takeMatch answer) d).matching = d.matching ++ versions := by
  induction versions with
  | nil => intro d; simp
  | cons v versions ih => intro d; rw [List.foldl_cons, ih, matching_takeMatch, List.append_assoc]; rfl

/-- Of several matches the first one with metadata is adopted, and those after it are not asked about. Without any, all were
asked about, and the last one of which anything is known decides. -/
theorem foldl_takeMatch (answer : String → LookupOutcome) (versions : List String) :
    ∀ {d : Digest}, d.selected = none →
      (∃ before v after m, versions = before ++ v :: after ∧ (∀ w ∈ before, (answer w).metadata? = none) ∧
        (answer v).metadata? = some m ∧ (versions.foldl (takeMatch answer) d).selected = some m ∧
        (versions.foldl (takeMatch answer) d).asked = d.asked ++ before ++ [v]) ∨
      (∀ w ∈ versions, (answer w).metadata? = none) ∧ (versions.foldl (takeMatch answer) d).selected = none ∧
        (versions.foldl (takeMatch answer) d).asked = d.asked ++ versions ∧
        (versions.foldl (takeMatch answer) d).result =
          (versions.reverse.findSome? fun w => (answer w).result).or d.result := by
  induction versions with
  | nil => intro d h; exact Or.inr (by simp [h])
  | cons v versions ih =>
    intro d h
    rw [List.foldl_cons]
    cases hm : (answer v).metadata? with
    | some m =>
      rw [takeMatch_of_metadata h hm, foldl_takeMatch_of_selected versions (by rfl)]
      exact Or.inl ⟨[], v, versions, m, rfl, by simp, hm, rfl, by simp⟩
    | none =>
      rw [takeMatch_of_no_metadata h hm]
      rcases ih (d := { d with
        matching := d.matching ++ [v]
        asked := d.asked ++ [v]
        result := (answer v).result.or d.result }) h with ⟨before, w, after, m, rfl, hb, hw, hs, ha⟩ | ⟨hall, hs, ha, hr⟩
      · refine Or.inl ⟨v :: before, w, after, m, rfl, ?_, hw, hs, by rw [ha]; simp⟩
        rintro x (_ | ⟨_, hx⟩)
        · exact hm
        · exact hb x hx
      · refine Or.inr ⟨?_, hs, by rw [ha]; simp, ?_⟩
        · rintro x (_ | ⟨_, hx⟩)
          · exact hm
          · exact hall x hx
        · rw [hr, List.reverse_cons, List.findSome?_append]
          simp [Option.or_assoc]

end Digest

/-! ## The order of the candidates -/

namespace Candidate

/-- Whether the first candidate is no older than the second. -/
abbrev NoOlder (a b : Candidate) : Prop := (Version.compare b.version a.version).isLE = true

theorem noOlder_trans (a b c : Candidate) (hab : NoOlder a b) (hbc : NoOlder b c) : NoOlder a c :=
  Std.TransCmp.isLE_trans hbc hab

theorem noOlder_total (a b : Candidate) :
    ((Version.compare b.version a.version).isLE || (Version.compare a.version b.version).isLE) = true := by
  cases hc : Version.compare b.version a.version with
  | lt | eq => simp
  | gt => simp [Std.OrientedCmp.lt_of_gt hc]

theorem pairwise_newestFirst (cs : List Candidate) : (newestFirst cs).Pairwise NoOlder :=
  List.pairwise_mergeSort noOlder_trans noOlder_total cs

/-- Candidates are put in order one by one, each before those that are no newer. -/
theorem newestFirst_cons (c : Candidate) (cs : List Candidate) :
    newestFirst (c :: cs) = (newestFirst cs).orderedInsert NoOlder c := by
  obtain ⟨before, after, hcons, htail, hbefore⟩ := List.mergeSort_cons noOlder_trans noOlder_total c cs
  have hsorted := pairwise_newestFirst (c :: cs)
  rw [newestFirst, hcons] at hsorted
  unfold newestFirst
  rw [hcons, htail]
  clear hcons htail
  induction before with
  | nil =>
    cases after with
    | nil => rfl
    | cons b after =>
      have hb : NoOlder c b := List.rel_of_pairwise_cons hsorted List.mem_cons_self
      exact (List.orderedInsert_cons_of_le _ after hb).symm
  | cons b before ih =>
    have hb : ¬NoOlder c b := by simpa using hbefore b List.mem_cons_self
    rw [List.cons_append, List.cons_append, List.orderedInsert_of_not_le _ _ hb]
    congr 1
    exact ih (fun x hx => hbefore x (List.mem_cons_of_mem _ hx)) (List.pairwise_cons.mp hsorted).2

theorem newestFirst_eq_insertionSort (cs : List Candidate) : newestFirst cs = cs.insertionSort NoOlder := by
  induction cs with
  | nil => exact List.mergeSort_nil
  | cons c cs ih => rw [newestFirst_cons, ih, List.insertionSort_cons]

end Candidate

/-! ## Walking through the candidates -/

namespace Policy

/-- Whether a selector asks for a version, as far as its text tells, and no rule excludes it. -/
def admits (matcher : Matcher) (rules : Rules) (v : Version) : Bool := matcher.accepts v && !rules.rejects v

/-- The standard policy by a sort that evaluates. -/
theorem standard_eq (rules : Rules) :
    standard rules =
      { select := fun _ candidates request =>
          match Matcher.ofSelector request.selector with
          | .ok matcher => walk matcher rules false (candidates.insertionSort Candidate.NoOlder)
          | .error e => .report (.failed (.selection request.text e.message)) .done
        newest := standardNewest } := by
  have hselect : ∀ candidates request, standardSelect rules candidates request =
      match Matcher.ofSelector request.selector with
      | .ok matcher => walk matcher rules false (candidates.insertionSort Candidate.NoOlder)
      | .error e => .report (.failed (.selection request.text e.message)) .done := by
    intro candidates request
    rw [← Candidate.newestFirst_eq_insertionSort]
    rfl
  unfold standard
  congr 1
  funext _ candidates request
  exact hselect candidates request

/-- The candidates sit at their places in the offer. -/
def Placed (offered : List String) (cs : List Candidate) : Prop :=
  ∀ c ∈ cs, offered[c.position]? = some c.component.version

variable {matcher : Matcher} {rules : Rules} {answer : String → LookupOutcome} {offered : List String}

theorem needsMetadata_of_not_unique (h : matcher.isUnique = false) : matcher.needsMetadata = false := by
  cases matcher <;> simp_all [Matcher.isUnique, Matcher.needsMetadata]

/-- For a selector of several versions, the admitted candidates are the matches. -/
theorem play_walk_several (hm : matcher.isUnique = false) (cs : List Candidate) :
    ∀ (found : Bool) (d : Digest),
      d.play answer offered (walk matcher rules found cs) =
        if found = false ∧ cs.filter (fun c => admits matcher rules c.version) = [] then { d with result := some .missing }
        else ((cs.filter fun c => admits matcher rules c.version).map (·.component.version)).foldl (Digest.takeMatch answer) d := by
  have hn := needsMetadata_of_not_unique hm
  induction cs with
  | nil =>
    intro found d
    cases found <;> rfl
  | cons c cs ih =>
    intro found d
    unfold walk
    dsimp only
    by_cases ha : matcher.accepts c.version = true
    · rw [if_neg (by simp [ha]), if_neg (by simp [hn])]
      unfold ruled
      by_cases hr : rules.rejects c.version = true
      · rw [if_pos hr, List.filter_cons_of_neg (by simp [admits, hr])]
        exact ih found d
      · rw [if_neg hr, List.filter_cons_of_pos (by simp [admits, ha, hr])]
        simp only [goOn, hm, Digest.play, Digest.take]
        exact (ih true _).trans (by simp)
    · rw [if_pos (by simp [ha]), List.filter_cons_of_neg (by simp [admits, ha])]
      exact ih found d

/-- How a walk for one version may end. -/
inductive Ends (matcher : Matcher) (rules : Rules) (answer : String → LookupOutcome) (cs : List Candidate) (d : Digest) :
    Digest → Prop where
  /-- No candidate was matched. -/
  | nothing : Ends matcher rules answer cs d { d with result := some .missing }
  /-- The metadata of a candidate was needed, and could not be had. -/
  | failed {v : String} {f : Failure} (fails : (answer v).result = some (.failed f)) :
      Ends matcher rules answer cs d { d.note v with result := some (.failed f) }
  /-- A candidate was matched, by its metadata if that was needed. -/
  | matched {c : Candidate} (mem : c ∈ cs) (admitted : admits matcher rules c.version = true)
      (fits : matcher.needsMetadata = true → ∃ m, (answer c.component.version).result = some (.resolved m) ∧
        matcher.acceptsMetadata m = true) :
      Ends matcher rules answer cs d (d.takeMatch answer c.component.version)

theorem Ends.cons {cs : List Candidate} {d e : Digest} (h : Ends matcher rules answer cs d e) (c : Candidate) :
    Ends matcher rules answer (c :: cs) d e := by
  cases h with
  | nothing => exact .nothing
  | failed fails => exact .failed fails
  | matched mem admitted fits => exact .matched (List.mem_cons_of_mem _ mem) admitted fits

/-- A walk for one version that has looked at the metadata of candidates which do not fail, and then has ended. -/
def LooksAndEnds (matcher : Matcher) (rules : Rules) (answer : String → LookupOutcome) (cs : List Candidate) (d e : Digest) :
    Prop :=
  ∃ looked, (∀ v ∈ looked, ∀ f, (answer v).result ≠ some (.failed f)) ∧
    Ends matcher rules answer cs { d with asked := d.asked ++ looked } e

theorem Ends.looksAndEnds {cs : List Candidate} {d e : Digest} (h : Ends matcher rules answer cs d e) :
    LooksAndEnds matcher rules answer cs d e :=
  ⟨[], by simp, by simpa using h⟩

theorem LooksAndEnds.cons {cs : List Candidate} {d e : Digest} (h : LooksAndEnds matcher rules answer cs d e) (c : Candidate) :
    LooksAndEnds matcher rules answer (c :: cs) d e := by
  obtain ⟨looked, hlooked, hends⟩ := h
  exact ⟨looked, hlooked, hends.cons c⟩

/-- A further look comes before the others. -/
theorem LooksAndEnds.look {cs : List Candidate} {d e : Digest} {v : String}
    (h : LooksAndEnds matcher rules answer cs (d.note v) e) (hv : ∀ f, (answer v).result ≠ some (.failed f)) :
    LooksAndEnds matcher rules answer cs d e := by
  obtain ⟨looked, hlooked, hends⟩ := h
  refine ⟨v :: looked, ?_, by simpa [Digest.note] using hends⟩
  rintro w (_ | ⟨_, hw⟩)
  · exact hv
  · exact hlooked w hw

/-- Where metadata is needed, the walk goes on unless the metadata fits or fails. -/
theorem play_inspected (hm : matcher.isUnique = true) {c : Candidate} (ha : matcher.accepts c.version = true)
    {cs : List Candidate} {d : Digest}
    (hon : LooksAndEnds matcher rules answer cs (d.note c.component.version)
      ((d.note c.component.version).play answer offered (walk matcher rules false cs))) :
    LooksAndEnds matcher rules answer (c :: cs) d ((d.note c.component.version).play answer offered
      (goOn matcher false (inspected matcher rules c (answer c.component.version)) fun found => walk matcher rules found cs)) := by
  have hread : inspected matcher rules c (answer c.component.version) =
      inspected matcher rules c (.mk (answer c.component.version).result false []) := rfl
  rw [hread]
  rcases hr : (answer c.component.version).result with _ | m | _ | f <;> unfold inspected <;> dsimp only
  · exact (hon.cons c).look (by simp [hr])
  · by_cases hacc : matcher.acceptsMetadata m = true
    · rw [if_pos hacc]
      unfold ruled
      by_cases hrej : rules.rejects c.version = true
      · rw [if_pos hrej]
        exact (hon.cons c).look (by simp [hr])
      · rw [if_neg hrej]
        simp only [goOn, hm, if_true, Digest.play, Digest.take]
        have hmatched : Ends matcher rules answer (c :: cs) (d.note c.component.version) _ :=
          .matched List.mem_cons_self (by simp [admits, ha, hrej]) fun _ => ⟨m, hr, hacc⟩
        exact hmatched.looksAndEnds.look (by simp [hr])
    · rw [if_neg hacc]
      exact (hon.cons c).look (by simp [hr])
  · exact (hon.cons c).look (by simp [hr])
  · simp only [goOn, Digest.play, Digest.take]
    exact (Ends.failed hr).looksAndEnds

/-- A walk for one version looks at the metadata of candidates that do not fail, and then it ends. -/
theorem play_walk_one (hm : matcher.isUnique = true) (rules : Rules) (answer : String → LookupOutcome) (cs : List Candidate)
    (hp : Placed offered cs) :
    ∀ d : Digest, LooksAndEnds matcher rules answer cs d (d.play answer offered (walk matcher rules false cs)) := by
  induction cs with
  | nil => exact fun d => Ends.nothing.looksAndEnds
  | cons c cs ih =>
    intro d
    have ih := ih fun x hx => hp x (List.mem_cons_of_mem _ hx)
    unfold walk
    dsimp only
    by_cases ha : matcher.accepts c.version = true
    · rw [if_neg (by simp [ha])]
      by_cases hn : matcher.needsMetadata = true
      · rw [if_pos hn]
        unfold Digest.play
        rw [hp c List.mem_cons_self]
        exact play_inspected hm ha (ih _)
      · rw [if_neg hn]
        unfold ruled
        by_cases hrej : rules.rejects c.version = true
        · rw [if_pos hrej]
          exact (ih d).cons c
        · rw [if_neg hrej]
          simp only [goOn, hm, if_true, Digest.play, Digest.take]
          have hmatched : Ends matcher rules answer (c :: cs) d _ :=
            .matched List.mem_cons_self (by simp [admits, ha, hrej]) fun h => absurd h hn
          exact hmatched.looksAndEnds
    · rw [if_pos (by simp [ha])]
      exact (ih d).cons c

/-- Whether the first version is no older than the second. -/
def NoOlder (v w : String) : Prop := (Version.compare ⟨w⟩ ⟨v⟩).isLE = true

/-- The admitted versions of a listing, from the newest to the oldest. -/
def admittedNewestFirst (matcher : Matcher) (rules : Rules) (request : Request) (versions : List String) : List String :=
  ((Candidate.newestFirst (Candidate.offer request versions)).filter fun c => admits matcher rules c.version).map
    (·.component.version)

theorem placed_newestFirst (request : Request) (versions : List String) :
    Placed versions (Candidate.newestFirst (Candidate.offer request versions)) := by
  intro c hc
  rw [Candidate.newestFirst, List.mem_mergeSort, Candidate.offer, List.mem_map] at hc
  obtain ⟨⟨v, i⟩, hvi, rfl⟩ := hc
  exact List.mk_mem_zipIdx_iff_getElem?.mp hvi

theorem offer_map_version (request : Request) (versions : List String) :
    (Candidate.offer request versions).map (·.component.version) = versions := by
  rw [Candidate.offer, List.map_map]
  exact List.zipIdx_map_fst 0 versions

theorem admittedNewestFirst_perm (matcher : Matcher) (rules : Rules) (request : Request) (versions : List String) :
    (admittedNewestFirst matcher rules request versions).Perm (versions.filter fun v => admits matcher rules ⟨v⟩) := by
  have hsort := List.mergeSort_perm (Candidate.offer request versions) fun a b => (Version.compare b.version a.version).isLE
  have hperm := (hsort.filter fun c => admits matcher rules c.version).map (·.component.version)
  have hfilter := List.filter_map (p := fun v => admits matcher rules ⟨v⟩)
    (f := fun c : Candidate => c.component.version) (l := Candidate.offer request versions)
  rw [offer_map_version] at hfilter
  rw [hfilter]
  exact hperm

theorem admittedNewestFirst_pairwise (matcher : Matcher) (rules : Rules) (request : Request) (versions : List String) :
    (admittedNewestFirst matcher rules request versions).Pairwise NoOlder := by
  have hsort := (Candidate.pairwise_newestFirst (Candidate.offer request versions)).filter fun c => admits matcher rules c.version
  exact List.pairwise_map.mpr hsort

/-! ## What a selection comes to -/

variable {request : Request} {versions : List String}

/-- What the standard policy makes of a listing, where `r` was found before. -/
def standardDigest (rules : Rules) (request : Request) (versions : List String) (answer : String → LookupOutcome)
    (r : Option Lookup) : Digest :=
  Digest.play answer versions (standardSelect rules (Candidate.offer request versions) request) { result := r }

/-- A selection of several versions matches the admitted ones, newest first; without any, nothing is found. -/
theorem standardDigest_several (hsel : Matcher.ofSelector request.selector = .ok matcher) (hu : matcher.isUnique = false)
    (r : Option Lookup) :
    standardDigest rules request versions answer r =
      if admittedNewestFirst matcher rules request versions = [] then { result := some .missing }
      else (admittedNewestFirst matcher rules request versions).foldl (Digest.takeMatch answer) { result := r } := by
  unfold standardDigest standardSelect
  rw [hsel]
  dsimp only
  rw [play_walk_several hu]
  simp only [true_and, admittedNewestFirst, List.map_eq_nil_iff]

/-- A selection of one version looks at the metadata of candidates that do not fail, and then it ends. -/
theorem standardDigest_one (hsel : Matcher.ofSelector request.selector = .ok matcher) (hu : matcher.isUnique = true)
    (rules : Rules) (versions : List String) (answer : String → LookupOutcome) (r : Option Lookup) :
    LooksAndEnds matcher rules answer (Candidate.newestFirst (Candidate.offer request versions)) { result := r }
      (standardDigest rules request versions answer r) := by
  unfold standardDigest standardSelect
  rw [hsel]
  exact play_walk_one hu rules answer _ (placed_newestFirst request versions) { result := r }

/-- A selector that cannot be read is a failure. -/
theorem standardDigest_error {e : SelectorError} (hsel : Matcher.ofSelector request.selector = .error e) (r : Option Lookup) :
    standardDigest rules request versions answer r =
      { result := some (.failed (.selection request.text e.message)) } := by
  unfold standardDigest standardSelect
  rw [hsel]
  rfl

/-- How the standard policy comes to adopt a version among those listed. The matches before it have no metadata, and the version is
listed and admitted. A selector of several versions matches all that are admitted, newest first, and a selector of one version
matches this one alone. -/
structure Adopts (matcher : Matcher) (rules : Rules) (versions : List String) (answer : String → LookupOutcome) (d : Digest)
    (before : List String) (v : String) (after : List String) (m : Metadata) : Prop where
  matching : d.matching = before ++ v :: after
  before_unavailable : ∀ w ∈ before, w ∈ d.asked ∧ (answer w).metadata? = none
  asked : v ∈ d.asked
  metadata : (answer v).metadata? = some m
  listed : v ∈ versions
  admitted : admits matcher rules ⟨v⟩ = true
  fits : matcher.acceptsMetadata m = true
  several : matcher.isUnique = false →
    d.matching.Perm (versions.filter fun w => admits matcher rules ⟨w⟩) ∧ d.matching.Pairwise NoOlder
  one : matcher.isUnique = true → d.matching = [v]

theorem acceptsMetadata_of_not_needsMetadata (h : matcher.needsMetadata = false) (m : Metadata) :
    matcher.acceptsMetadata m = true := by
  rcases matcher with (_ | _) | _ | _ | _ <;> simp_all [Matcher.needsMetadata, Matcher.acceptsMetadata]

theorem adopts_several (hu : matcher.isUnique = false) {r : Option Lookup} {m : Metadata}
    (h : ((admittedNewestFirst matcher rules request versions).foldl (Digest.takeMatch answer) { result := r }).selected =
      some m) :
    ∃ before v after, Adopts matcher rules versions answer
      ((admittedNewestFirst matcher rules request versions).foldl (Digest.takeMatch answer) { result := r })
      before v after m := by
  have hperm := admittedNewestFirst_perm matcher rules request versions
  have hsorted := admittedNewestFirst_pairwise matcher rules request versions
  have hd : ({ result := r } : Digest).selected = none := rfl
  generalize admittedNewestFirst matcher rules request versions = vs at h hperm hsorted ⊢
  have hmatching := Digest.matching_foldl_takeMatch answer vs { result := r }
  rw [List.nil_append] at hmatching
  rcases Digest.foldl_takeMatch answer vs hd with
    ⟨before, v, after, m', hsplit, hbefore, hv, hsome, hasked⟩ | ⟨-, hnone, -⟩
  · obtain rfl : m' = m := Option.some.inj (hsome.symm.trans h)
    obtain ⟨hlisted, hadm⟩ := List.mem_filter.mp (hperm.mem_iff.mp (by rw [hsplit]; simp : v ∈ vs))
    exact ⟨before, v, after, {
      matching := hmatching.trans hsplit
      before_unavailable := fun w hw => ⟨by rw [hasked]; simp [hw], hbefore w hw⟩
      asked := by rw [hasked]; simp
      metadata := hv
      listed := hlisted
      admitted := hadm
      fits := acceptsMetadata_of_not_needsMetadata (needsMetadata_of_not_unique hu) m'
      several := fun _ => by
        rw [hmatching]
        exact ⟨hperm, hsorted⟩
      one := fun h => nomatch hu.symm.trans h }⟩
  · nomatch hnone.symm.trans h

theorem Ends.adopts {cs : List Candidate} {looked : List String} {r : Option Lookup} {e : Digest} {m : Metadata}
    (h : Ends matcher rules answer cs { asked := looked, result := r } e) (hu : matcher.isUnique = true)
    (hcs : ∀ c ∈ cs, c.component.version ∈ versions) (hm : e.selected = some m) :
    ∃ v, Adopts matcher rules versions answer e [] v [] m := by
  cases h with
  | nothing => nomatch hm
  | failed fails => nomatch hm
  | @matched c mem admitted fits =>
    have hd : ({ asked := looked, result := r } : Digest).selected = none := rfl
    cases hans : (answer c.component.version).metadata? with
    | none =>
      rw [Digest.takeMatch_of_no_metadata hd hans] at hm
      nomatch hm
    | some m' =>
      have htake := Digest.takeMatch_of_metadata hd hans
      have hm' : m' = m := by
        rw [htake] at hm
        exact Option.some.inj hm
      subst hm'
      refine ⟨c.component.version, {
        matching := by rw [htake]
        before_unavailable := by simp
        asked := by rw [htake]; simp
        metadata := hans
        listed := hcs c mem
        admitted := admitted
        fits := ?_
        several := fun h => nomatch hu.symm.trans h
        one := fun _ => by rw [htake]; rfl }⟩
      cases hn : matcher.needsMetadata with
      | false => exact acceptsMetadata_of_not_needsMetadata hn m'
      | true =>
        obtain ⟨m, hr, hacc⟩ := fits hn
        rw [LookupOutcome.metadata?, hr] at hans
        obtain rfl := Option.some.inj hans
        exact hacc

/-- What the standard policy adopts, if it adopts anything. -/
theorem adopts_of_selected {r : Option Lookup} {m : Metadata}
    (h : (standardDigest rules request versions answer r).selected = some m) :
    ∃ matcher, Matcher.ofSelector request.selector = .ok matcher ∧ ∃ before v after,
      Adopts matcher rules versions answer (standardDigest rules request versions answer r) before v after m := by
  cases hsel : Matcher.ofSelector request.selector with
  | error e =>
    rw [standardDigest_error hsel] at h
    nomatch h
  | ok matcher =>
    refine ⟨matcher, rfl, ?_⟩
    cases hu : matcher.isUnique with
    | false =>
      rw [standardDigest_several hsel hu] at h ⊢
      split at h
      · nomatch h
      · rename_i hne
        rw [if_neg hne]
        exact adopts_several hu h
    | true =>
      obtain ⟨looked, -, hends⟩ := standardDigest_one hsel hu rules versions answer r
      have hlisted : ∀ c ∈ Candidate.newestFirst (Candidate.offer request versions), c.component.version ∈ versions :=
        fun c hc => List.mem_of_getElem? (placed_newestFirst request versions c hc)
      obtain ⟨v, hv⟩ := hends.adopts hu hlisted h
      exact ⟨[], v, [], hv⟩

end Policy

/-- A state that offers a listing to the standard policy ends where the digest does, by the answers it finds out. -/
theorem RequestState.mirrors_select_standard {s : RequestState} (hfit : s.ProbesFit) (hsel : s.selected = none) (rules : Rules)
    (turn : Nat) (versions : List String) {answer : String → LookupOutcome}
    (hans : (s.select (.standard rules) turn versions).AgreesWith answer) :
    s.Mirrors (s.select (.standard rules) turn versions)
      { Policy.standardDigest rules s.request versions answer s.outcome with
        result := (Policy.standardDigest rules s.request versions answer s.outcome).concluded } :=
  mirrors_select hfit hsel (.standard rules) turn versions hans

end VersionChain
