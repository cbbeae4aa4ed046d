import VersionChain.Proofs.Economy

/-!
# The newest version, with and without a status

A selector for the latest version goes by the versions and the rules alone. One for the latest version of a status reads the
metadata of every candidate it comes to, even where the status is the first one of all. Both come to the same just if every
candidate down to the newest one that is not excluded has metadata, and its status is good enough.
-/

namespace VersionChain

/-- The scheme has both the status of the metadata and the given one, and the former is not the earlier of the two. -/
def Metadata.IsAtLeast (m : Metadata) (status : String) : Prop :=
  ∃ actual wanted, m.statusScheme.idxOf? m.status = some actual ∧ m.statusScheme.idxOf? status = some wanted ∧ wanted ≤ actual

theorem Matcher.acceptsMetadata_iff_isAtLeast {status : String} {m : Metadata} :
    (latest (some status)).acceptsMetadata m = true ↔ m.IsAtLeast status := by
  unfold acceptsMetadata Metadata.IsAtLeast
  dsimp only
  cases m.statusScheme.idxOf? m.status <;> cases m.statusScheme.idxOf? status <;> simp

namespace Policy

variable {rules : Rules} {outcomes : List LookupOutcome} {status : String}

/-! ## The newest version -/

/-- Where the latest version is asked for, the rules alone decide about a candidate. -/
theorem judge_latest (rules : Rules) (o : LookupOutcome) (c : Candidate) : judge (.latest none) rules o c = ruled rules c :=
  rfl

theorem ruled_of_rejects {c : Candidate} (h : rules.rejects c.version = true) : ruled rules c = .rejected c.component.version :=
  if_pos h

theorem ruled_of_not_rejects {c : Candidate} (h : ¬rules.rejects c.version = true) : ruled rules c = .isMatch c.component :=
  if_neg h

/-- A walk for the latest version passes over the excluded candidates, to the first that is not excluded. -/
theorem run_walk_latest (rules : Rules) (outcomes : List LookupOutcome) (cs : List Candidate) :
    ((walk (.latest none) rules false cs).run outcomes).1 =
      (cs.takeWhile fun c => rules.rejects c.version).map (fun c => .rejected c.component.version) ++
        [match cs.find? fun c => !rules.rejects c.version with
          | some c => .isMatch c.component
          | none => .noMatch] := by
  induction cs with
  | nil => rfl
  | cons c cs ih =>
    rw [run_walk_judge, judgeAt, judge_latest]
    by_cases hr : rules.rejects c.version = true
    · rw [ruled_of_rejects hr, List.takeWhile_cons, if_pos hr, List.find?_cons_of_neg (by simp [hr])]
      exact congrArg _ ih
    · rw [ruled_of_not_rejects hr, List.takeWhile_cons, if_neg hr, List.find?_cons_of_pos (by simp [hr])]
      rfl

/-! ## The newest version of a status -/

/-- A status makes no difference to the verdict on a candidate just if the metadata is there and its status is good enough. -/
theorem judge_latest_status_eq_iff {o : LookupOutcome} {c : Candidate} :
    judge (.latest (some status)) rules o c = ruled rules c ↔ ∃ m, o.result = some (.resolved m) ∧ m.IsAtLeast status := by
  constructor
  · intro h
    have hjudges := judges_judge (.latest (some status)) rules o c
    rw [h] at hjudges
    have hasked : AsksFor (.latest (some status)) o c := by
      by_cases hr : rules.rejects c.version = true
      · rw [ruled_of_rejects hr] at hjudges
        cases hjudges with
        | rejected asked => exact asked
      · rw [ruled_of_not_rejects hr] at hjudges
        cases hjudges with
        | isMatch asked => exact asked
    obtain ⟨m, hm, hacc⟩ := hasked.2 rfl
    exact ⟨m, hm, Matcher.acceptsMetadata_iff_isAtLeast.mp hacc⟩
  · rintro ⟨m, hm, hleast⟩
    exact judge_of_asksFor ⟨rfl, fun _ => ⟨m, hm, Matcher.acceptsMetadata_iff_isAtLeast.mpr hleast⟩⟩

/-- A walk for a status gives the same verdicts as one for the latest version just if the metadata of every candidate that the
latter comes to is there and its status is good enough. -/
theorem run_walk_latest_status_eq_iff (rules : Rules) (outcomes : List LookupOutcome) (status : String) (cs : List Candidate) :
    ((walk (.latest (some status)) rules false cs).run outcomes).1 = ((walk (.latest none) rules false cs).run outcomes).1 ↔
      ∀ c ∈ upToFirst (fun c => !rules.rejects c.version) cs,
        ∃ m, (outcomes.getD c.position .unknown).result = some (.resolved m) ∧ m.IsAtLeast status := by
  induction cs with
  | nil => exact iff_of_true rfl nofun
  | cons c cs ih =>
    rw [run_walk_judge, run_walk_judge, List.cons.injEq]
    have hhead : judgeAt (.latest (some status)) rules outcomes c = judgeAt (.latest none) rules outcomes c ↔
        ∃ m, (outcomes.getD c.position .unknown).result = some (.resolved m) ∧ m.IsAtLeast status :=
      judge_latest_status_eq_iff
    rw [hhead]
    by_cases hr : rules.rejects c.version = true
    · rw [upToFirst_cons_of_neg (by simp [hr]), List.forall_mem_cons, ← ih]
      refine and_congr_right fun hm => ?_
      rw [hhead.mpr hm, show judgeAt (.latest none) rules outcomes c = _ from ruled_of_rejects hr]
      rfl
    · rw [upToFirst_cons_of_pos (by simp [hr]), List.forall_mem_singleton]
      refine and_iff_left_of_imp fun hm => ?_
      rw [hhead.mpr hm, show judgeAt (.latest none) rules outcomes c = _ from ruled_of_not_rejects hr]
      rfl

/-- Under `latest` the newest candidate that is not excluded is the one match, after those that are newer were rejected. Under
`latest.integration` the same is reported just if each of these candidates has metadata, whose status is `integration` or a later
one of its scheme. -/
theorem latest_integration_iff (rules : Rules) (turn : Nat) (candidates : List Candidate) (group name : String)
    (outcomes : List LookupOutcome) :
    let verdicts (selector : String) := (((standard rules).select turn candidates ⟨group, name, selector⟩).run outcomes).1
    let newest := Candidate.newestFirst candidates
    verdicts "latest" = (newest.takeWhile fun c => rules.rejects c.version).map (fun c => .rejected c.component.version) ++
        [match newest.find? fun c => !rules.rejects c.version with
          | some c => .isMatch c.component
          | none => .noMatch] ∧
      (verdicts "latest.integration" = verdicts "latest" ↔
        ∀ c ∈ upToFirst (fun c => !rules.rejects c.version) newest,
          ∃ m, (outcomes.getD c.position .unknown).result = some (.resolved m) ∧ m.IsAtLeast "integration") := by
  intro verdicts newest
  have hselect : ∀ {selector : String} {matcher : Matcher}, Matcher.ofSelector selector = .ok matcher →
      verdicts selector = ((walk matcher rules false newest).run outcomes).1 := by
    intro selector matcher hsel
    change ((standardSelect rules candidates ⟨group, name, selector⟩).run outcomes).1 = _
    rw [standardSelect, hsel]
  rw [hselect (by decide +kernel : Matcher.ofSelector "latest" = .ok (.latest none)),
    hselect (by decide +kernel : Matcher.ofSelector "latest.integration" = .ok (.latest (some "integration")))]
  exact ⟨run_walk_latest rules outcomes newest, run_walk_latest_status_eq_iff rules outcomes "integration" newest⟩

/-- The newest version has no metadata. It is the latest one, but the one before it is the latest of the status `integration`. -/
theorem not_all_integrations_latest :
    ¬∀ (rules : Rules) (turn : Nat) (candidates : List Candidate) (group name : String) (outcomes : List LookupOutcome),
      (((standard rules).select turn candidates ⟨group, name, "latest.integration"⟩).run outcomes).1 =
        (((standard rules).select turn candidates ⟨group, name, "latest"⟩).run outcomes).1 := by
  intro h
  have hsame := h {} 0 (Candidate.offer ⟨"g", "n", "latest"⟩ ["2.0", "1.0"]) "g" "n"
    [.of .missing, .of (.resolved (.facts (.plain ⟨"g", "n", "1.0"⟩)))]
  rw [standard_eq] at hsame
  revert hsame
  decide +kernel

end Policy

end VersionChain
