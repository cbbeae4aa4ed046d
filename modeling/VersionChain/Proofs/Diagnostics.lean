import VersionChain.Proofs.Exhaustion
import VersionChain.Proofs.Verdicts

/-!
# What an error says of the versions passed over

A request that finds nothing reports the versions that it passed over: those that the selector does not ask for, and those that a
rule excludes. The states collect them from the verdicts on every listing that is offered, in the first step and in the second, and
the error puts the states together. `listed` is what the accesses of a request have listed; the report is a function of that, and of
the metadata that the same accesses told.
-/

namespace VersionChain

/-- The versions of a listing that did not fail. -/
def Listing.versions? : Listing → Option (List String)
  | listed versions => some versions
  | failed _ => none

/-- What the accesses of a request have listed, in the order of the accesses. -/
def listed (asked : History) : List (List String) :=
  asked.filterMap fun a =>
    match a with
    | .listing _ _ o => o.result.bind Listing.versions?
    | .lookup .. => none

theorem listed_append (asked more : History) : listed (asked ++ more) = listed asked ++ listed more :=
  List.filterMap_append

theorem listed_cons (tier : Tier) (request : Request) (o : ListingOutcome) (asked : History) :
    listed (.listing tier request o :: asked) = (o.result.bind Listing.versions?).toList ++ listed asked := by
  unfold listed
  rw [List.filterMap_eq_flatMap_toList, List.flatMap_cons, ← List.filterMap_eq_flatMap_toList]

/-- Only listings list. -/
theorem listed_filter (asked : History) : listed (asked.filter Access.isListing) = listed asked := by
  unfold listed
  rw [List.filterMap_filter]
  refine List.filterMap_congr fun a _ => ?_
  cases a <;> rfl

namespace RequestState

/-! ## What a state remarks -/

/-- The versions of which a state has made a remark. -/
def remarks (s : RequestState) : Remark → List String
  | .unmatched => s.unmatched
  | .rejected => s.rejected

variable {answer : String → LookupOutcome} (r : Remark)

theorem remarks_congr {s t : RequestState} (h : s.quiet = t.quiet) : s.remarks r = t.remarks r := by
  have hquiet : ∀ u : RequestState, u.quiet.remarks r = u.remarks r := fun u => by cases r <;> rfl
  rw [← hquiet s, h, hquiet]

theorem remarks_consult (s : RequestState) (v : String) : (s.consult v).2.remarks r = s.remarks r := by
  rw [consult_frame]
  cases r <;> rfl

theorem remarks_adopt (s : RequestState) (c : Component) : (s.adopt c).remarks r = s.remarks r := by
  have hnoticing : (s.noticing c).remarks r = s.remarks r := by
    rw [(noticing_frame s c).1]
    cases r <;> rfl
  rw [← hnoticing, ← remarks_consult r (s.noticing c) c.version, adopt_eq, (taken_frame c _).1]
  cases r <;> rfl

/-- A verdict adds the version of which it makes the remark. -/
theorem remarks_apply (s : RequestState) (verdict : Verdict) :
    (s.apply verdict).remarks r = Text.insertAll (s.remarks r) (r.of? verdict).toList := by
  cases verdict with
  | isMatch c =>
    have hmatch : (s.apply (.isMatch c)).remarks r = s.remarks r := by
      unfold apply
      dsimp only
      split
      · cases r <;> rfl
      · rw [remarks_adopt]
        cases r <;> rfl
    rw [hmatch]
    cases r <;> rfl
  | notMatched v => cases r <;> rfl
  | rejected v => cases r <;> rfl
  | noMatch => cases r <;> rfl
  | failed f => cases r <;> rfl

/-- A state that follows a selection remarks what the verdicts of the selection do. -/
theorem remarks_follow (offered : List String) (sel : Selection) :
    ∀ {s : RequestState}, s.ProbesFit → (follow offered sel s).AgreesWith answer →
      (follow offered sel s).remarks r =
        Text.insertAll (s.remarks r) ((sel.run (offered.map answer)).1.filterMap r.of?) := by
  induction sel with
  | done => intro s _ _; rfl
  | report verdict next ih =>
    intro s hfit hans
    obtain ⟨asked, h1⟩ := apply_advances hfit verdict
    have hrun : ((Selection.report verdict next).run (offered.map answer)).1 = verdict :: (next.run (offered.map answer)).1 := rfl
    rw [follow, ih h1.fit hans, remarks_apply, hrun, ← Text.insertAll_append, List.filterMap_eq_flatMap_toList,
      List.filterMap_eq_flatMap_toList, List.flatMap_cons]
  | inspect position next ih =>
    intro s hfit hans
    unfold follow at hans ⊢
    unfold Selection.run
    cases hv : offered[position]? with
    | none =>
      rw [hv] at hans
      simpa [hv] using ih .unknown hfit hans
    | some v =>
      rw [hv] at hans
      dsimp only at hans ⊢
      obtain ⟨asked, h1⟩ := consult_advances hfit v
      obtain ⟨more, h2⟩ := follow_advances offered (next (s.consult v).1) h1.fit
      have ho : answer v = (s.consult v).1 := hans.of_advances h2 v _ (by rw [found?_consult, if_pos rfl])
      have hget : (offered.map answer).getD position .unknown = (s.consult v).1 := by simp [hv, ho]
      rw [ih _ h1.fit hans, remarks_consult, hget]

theorem remarks_conclude (s : RequestState) : s.conclude.remarks r = s.remarks r := by
  unfold conclude
  cases s.selected with
  | none => rfl
  | some m => cases r <;> rfl

/-- What a selector demands of the answers: where metadata is needed, it does not fail. -/
def Available (request : Request) (answer : String → LookupOutcome) : Prop :=
  ∀ matcher, Matcher.ofSelector request.selector = .ok matcher → matcher.needsMetadata = true →
    ∀ v f, (answer v).result ≠ some (.failed f)

/-- A state that offers a listing to a policy remarks what the verdicts do. -/
theorem remarks_select_run {s : RequestState} (hfit : s.ProbesFit) (policy : Policy) (turn : Nat) (versions : List String)
    (hans : (s.select policy turn versions).AgreesWith answer) :
    (s.select policy turn versions).remarks r = Text.insertAll (s.remarks r)
      (((policy.select turn (Candidate.offer s.request versions) s.request).run (versions.map answer)).1.filterMap r.of?) := by
  have h1 := foldl_withProbe_advances (s := { s with matching := [] }) hfit versions
  have hremarks : (versions.foldl withProbe { s with matching := [] }).remarks r = s.remarks r := by
    rw [foldl_withProbe_frame]
    cases r <;> rfl
  have hrequest : (versions.foldl withProbe { s with matching := [] }).request = s.request := h1.request
  unfold select at hans ⊢
  dsimp only at hans ⊢
  generalize versions.foldl withProbe { s with matching := [] } = p at h1 hremarks hrequest hans ⊢
  rw [hrequest] at hans ⊢
  obtain ⟨asked, h2⟩ := follow_advances versions (policy.select turn (Candidate.offer s.request versions) s.request) h1.fit
  rw [remarks_conclude, remarks_follow r versions _ h1.fit (hans.of_advances (conclude_advances h2.fit)), hremarks]

/-- A state that offers a listing to the standard policy remarks what the policy does. -/
theorem remarks_select {s : RequestState} (hfit : s.ProbesFit) (rules : Rules) (turn : Nat) (versions : List String)
    (hans : (s.select (.standard rules) turn versions).AgreesWith answer) (hok : Available s.request answer) :
    (s.select (.standard rules) turn versions).remarks r =
      Text.insertAll (s.remarks r) (Policy.remarks rules s.request answer r versions) := by
  rw [remarks_select_run r hfit (.standard rules) turn versions hans, ← Policy.remarks_standardSelect r hok]
  rfl

/-- A step adds what the standard policy remarks of the versions listed then. -/
theorem remarks_resolve {s : RequestState} (hfit : s.ProbesFit) (rules : Rules) (turn : Nat)
    (hans : (s.resolve (.standard rules) turn).2.AgreesWith answer) (hok : Available s.request answer) :
    (s.resolve (.standard rules) turn).2.remarks r =
      Text.insertAll (s.remarks r) (((s.resolve (.standard rules) turn).2.listing.state.bind Listing.versions?).toList.flatMap
        (Policy.remarks rules s.request answer r)) := by
  obtain ⟨asked, hadv⟩ := resolve_advances hfit (.standard rules) turn
  rw [hadv.listing]
  rcases resolve_cases (.standard rules) turn s with ⟨f, hl, ht⟩ | ⟨versions, hl, ht⟩ | ⟨hl, ht⟩ <;> rw [ht] at hans ⊢ <;> rw [hl]
  · cases r <;> rfl
  · have hafter : s.afterListing.remarks r = s.remarks r := by cases r <;> rfl
    rw [remarks_select r (s := s.afterListing) hfit rules turn versions hans hok, hafter]
    exact congrArg _ (List.append_nil _).symm
  · cases r <;> rfl

end RequestState

/-! ## What is remarked along a course -/

namespace Course

variable {rules : Rules} {request : Request} {session : Session} {winner : Option Resolver.Winner} {first last : RequestState}
  {nearby : ListingOutcome} {before later : History}
  (h : Course (.standard rules) request session winner first last nearby before later)

include h

/-- What is listed after the first step is what its accesses have listed. -/
theorem listed_before : listed before = (first.listing.state.bind Listing.versions?).toList := by
  have htr := h.accounted_first.listing
  rw [← listed_filter]
  rcases h.listings with ⟨hlistings, -⟩ | ⟨⟨remote, hlistings⟩, hunknown⟩ <;> rw [hlistings] at htr ⊢
  · rw [htr.state_eq, listed_cons]
    exact List.append_nil _
  · have hnone : nearby.result = none := by simpa [Outcome.hasResult] using hunknown
    rw [htr.state_both, listed_cons, listed_cons, hnone, Option.or_none]
    exact List.append_nil _

/-- In the end, the remarks are those on all that was listed, by the answers that are known then. -/
theorem remarks_last (r : Remark) (hok : RequestState.Available request last.answer) :
    last.remarks r = Text.distinct ((listed (before ++ later)).flatMap (Policy.remarks rules request last.answer r)) := by
  have hfirst : first.remarks r = Text.distinct ((listed before).flatMap (Policy.remarks rules request last.answer r)) := by
    have hans : first.AgreesWith last.answer := fun v o ho => last.agreesWith_answer v o (h.known v o ho)
    rw [h.listed_before]
    obtain ⟨turn, rfl⟩ := h.begun
    have hstart : (RequestState.start request session).remarks r = [] := by cases r <;> rfl
    rw [RequestState.remarks_resolve r (RequestState.accounted_start request session).fit rules turn hans hok, hstart]
    rfl
  rcases h.ended with ⟨-, hdef, ⟨turn, hlast⟩, -, remote, hlater⟩ | ⟨-, hq, rfl⟩
  · obtain ⟨hknown, -⟩ := h.further.mp (RequestState.outcome_eq_of_isDeferred hdef).2
    have hnearby := h.listings_of_known hknown
    have hlater' : listed later = (remote.result.bind Listing.versions?).toList := by
      rw [← listed_filter, hlater, listed_cons]
      exact List.append_nil _
    have hstate : last.listing.state = remote.result.or nearby.result := by
      have htr := h.accounted_last.listing
      rw [List.filter_append, hnearby, hlater] at htr
      exact htr.state_both
    have hstep : last.remarks r = Text.insertAll (first.remarks r) ((last.listing.state.bind Listing.versions?).toList.flatMap
        (Policy.remarks rules request last.answer r)) := by
      have hrequest : first.quiet.request = request := h.accounted_first.about
      have hfit : first.quiet.ProbesFit := h.accounted_first.fit
      have hans : (first.quiet.resolve (.standard rules) turn).2.AgreesWith last.answer := hlast ▸ last.agreesWith_answer
      have hstep := RequestState.remarks_resolve r hfit rules turn hans (hrequest ▸ hok)
      rwa [← hlast, hrequest, RequestState.remarks_congr r (RequestState.quiet_quiet first)] at hstep
    rw [hstep, hfirst, hstate, listed_append, List.flatMap_append, hlater']
    cases hr : remote.result with
    | some l => exact (Text.insertAll_append [] _ _).symm
    | none =>
      -- then the nearby listing is offered again, and all that is remarked of it was remarked before
      have hbefore : listed before = (nearby.result.bind Listing.versions?).toList := by
        rw [← listed_filter, hnearby, listed_cons]
        exact List.append_nil _
      rw [Option.none_or, hbefore, Option.bind_none, Option.toList_none, List.flatMap_nil, List.append_nil]
      exact Text.insertAll_distinct_self _
  · rw [List.append_nil, RequestState.remarks_congr r hq, hfirst]

end Course

/-! ## The report -/

/-- Unless its metadata fails, a selector does not ask for a version whose text it does not accept, or whose metadata it needs and
finds insufficient. -/
theorem Policy.applies_unmatched_iff {matcher : Matcher} (rules : Rules) {o : LookupOutcome} (v : String)
    (ho : matcher.needsMetadata = true → ∀ f, o.result ≠ some (.failed f)) :
    Remark.unmatched.applies matcher rules o v = true ↔
      matcher.accepts ⟨v⟩ = false ∨ matcher.needsMetadata = true ∧ matcher.Insufficient o := by
  unfold Remark.applies wants Matcher.Insufficient LookupOutcome.metadata?
  cases ha : matcher.accepts ⟨v⟩ with
  | false => simp
  | true =>
    cases hn : matcher.needsMetadata with
    | false => simp
    | true =>
      rcases hr : o.result with _ | m | _ | f
      · simp
      · simp [Lookup.metadata?]
      · simp [Lookup.metadata?]
      · exact absurd hr (ho hn f)

theorem Policy.applies_rejected_iff {matcher : Matcher} {rules : Rules} {o : LookupOutcome} {v : String} :
    Remark.rejected.applies matcher rules o v = true ↔
      (matcher.accepts ⟨v⟩ = true ∧
        (matcher.needsMetadata = true → ∃ m, o.result = some (.resolved m) ∧ matcher.acceptsMetadata m = true)) ∧
      rules.rejects ⟨v⟩ = true := by
  unfold Remark.applies wants
  rw [Bool.and_eq_true, Bool.and_eq_true]
  refine and_congr_left fun _ => and_congr_right fun _ => ?_
  cases matcher.needsMetadata with
  | false => simp
  | true => simp [Option.any_eq_true, LookupOutcome.metadata?_eq_some_iff]

/-- A state that has found nothing has met no failure of metadata that its selector needs. -/
theorem RequestState.Candid.available {rules : Rules} {t : RequestState} (h : t.Candid rules) (hn : t.FoundNothing) :
    Available t.request t.answer := by
  intro matcher hmatcher hneeds v f hf
  have hone : ∀ matcher', Matcher.ofSelector t.request.selector = .ok matcher' → matcher'.isUnique = true := by
    intro matcher' hmatcher'
    obtain rfl := Except.ok.inj (hmatcher.symm.trans hmatcher')
    cases hu : matcher.isUnique with
    | true => rfl
    | false => nomatch hneeds.symm.trans (Policy.needsMetadata_of_not_unique hu)
  unfold answer at hf
  cases ho : t.found? v with
  | none =>
    rw [ho] at hf
    nomatch hf
  | some o =>
    rw [ho] at hf
    exact hn.outcome_ne_failed f (h.one hone v o f ho hf)

namespace Resolver

/-- What each repository was asked in the course of a request. -/
def Run.asked (run : Run) (sessions : List Session) : List History :=
  List.zipWith (fun before after => after.history.drop before.history.length) sessions run.sessions

theorem Run.getElem?_asked {run : Run} {sessions : List Session} {i : Nat} {session : Session} {asked : History}
    (hi : sessions[i]? = some session) (h : run.sessions[i]? = some (session.after asked)) :
    (run.asked sessions)[i]? = some asked := by
  rw [Run.asked, List.getElem?_zipWith, hi, h]
  exact congrArg some List.drop_left

theorem length_asked (policy : Policy) (schedule : Schedule) (turn : Nat) (sessions : List Session) (request : Request) :
    ((resolve policy schedule turn sessions request).asked sessions).length = sessions.length := by
  rw [Run.asked, List.length_zipWith, Run.sessions, List.length_map, length_states_resolve, Nat.min_self]

theorem mem_distinct_remarks {rules : Rules} {request : Request} {r : Remark} {v : String} (histories : List History) :
    v ∈ Text.distinct (histories.flatMap fun asked =>
        (listed asked).flatMap (Policy.remarks rules request (metadataAfter asked) r)) ↔
      ∃ asked ∈ histories, ∃ versions ∈ listed asked, v ∈ versions ∧
        ∃ matcher, Matcher.ofSelector request.selector = .ok matcher ∧
          Policy.Reaches matcher rules (metadataAfter asked) versions v ∧
          r.applies matcher rules (metadataAfter asked v) v = true := by
  simp only [Text.mem_distinct, List.mem_flatMap, Policy.mem_remarks]
  refine exists_congr fun asked => and_congr_right fun _ => exists_congr fun versions => and_congr_right fun _ => ?_
  constructor
  · rintro ⟨matcher, hsel, hv, hrest⟩
    exact ⟨hv, matcher, hsel, hrest⟩
  · rintro ⟨hv, matcher, hsel, hrest⟩
    exact ⟨matcher, hsel, hv, hrest⟩

section

variable {rules : Rules} {schedule : Schedule} {turn : Nat} {sessions : List Session} {request : Request} {text : String}
  {attempted unmatched rejected : List String}
  (he : (resolve (.standard rules) schedule turn sessions request).result =
    .error (.notFound text attempted unmatched rejected))

include he

/-- What the state at a place has remarked of all that its repository has listed. -/
theorem remarks_of_notFound {i : Nat} {session : Session} (hi : sessions[i]? = some session) :
    ∃ t asked, (resolve (.standard rules) schedule turn sessions request).states[i]? = some t ∧
      ((resolve (.standard rules) schedule turn sessions request).asked sessions)[i]? = some asked ∧
      RequestState.Available request (metadataAfter asked) ∧
      ∀ r, t.remarks r = Text.distinct ((listed asked).flatMap (Policy.remarks rules request (metadataAfter asked) r)) := by
  obtain ⟨first, last, nearby, before, later, -, hlast, hcourse⟩ :=
    course_resolve (.standard rules) schedule turn sessions request hi
  have hmem := List.mem_of_getElem? hlast
  have hacc := hcourse.accounted_last
  have hok := (candid_of_mem hmem).available (foundNothing_of_notFound he hmem)
  have hremarks := fun r => hcourse.remarks_last r (by rwa [hacc.about] at hok)
  rw [hacc.about, hacc.answer_eq] at hok
  rw [hacc.answer_eq] at hremarks
  exact ⟨last, before ++ later, hlast, Run.getElem?_asked hi (Run.getElem?_sessions hlast hacc), hok, hremarks⟩

/-- The metadata that the selector needs has failed in no repository. -/
theorem available_of_notFound {asked : History}
    (ha : asked ∈ (resolve (.standard rules) schedule turn sessions request).asked sessions) :
    RequestState.Available request (metadataAfter asked) := by
  obtain ⟨i, hi⟩ := List.getElem?_of_mem ha
  have hlt := (List.getElem?_eq_some_iff.mp hi).1
  rw [length_asked] at hlt
  obtain ⟨-, asked', -, hi', hok, -⟩ := remarks_of_notFound he (List.getElem?_eq_getElem hlt)
  obtain rfl := Option.some.inj (hi.symm.trans hi')
  exact hok

/-- What all states have remarked, first things first. -/
theorem distinct_remarks (r : Remark) :
    Text.distinct ((resolve (.standard rules) schedule turn sessions request).states.flatMap (·.remarks r)) =
      Text.distinct (((resolve (.standard rules) schedule turn sessions request).asked sessions).flatMap fun asked =>
        (listed asked).flatMap (Policy.remarks rules request (metadataAfter asked) r)) := by
  have hmap : (resolve (.standard rules) schedule turn sessions request).states.map (·.remarks r) =
      ((resolve (.standard rules) schedule turn sessions request).asked sessions).map fun asked =>
        Text.distinct ((listed asked).flatMap (Policy.remarks rules request (metadataAfter asked) r)) := by
    refine List.ext_getElem? fun i => ?_
    rw [List.getElem?_map, List.getElem?_map]
    by_cases hlt : i < sessions.length
    · obtain ⟨t, asked, ht, ha, -, hremarks⟩ := remarks_of_notFound he (List.getElem?_eq_getElem hlt)
      rw [ht, ha, Option.map_some, Option.map_some, hremarks]
    · have hstates := length_states_resolve (.standard rules) schedule turn sessions request
      have hasked := length_asked (.standard rules) schedule turn sessions request
      rw [List.getElem?_eq_none (by omega), List.getElem?_eq_none (by omega)]
      rfl
  rw [List.flatMap_def, hmap, ← List.flatMap_def]
  exact Text.distinct_flatMap_distinct _ _

/-- The error puts together what the states have remarked. -/
theorem reported_of_notFound :
    unmatched = Text.distinct ((resolve (.standard rules) schedule turn sessions request).states.flatMap (·.unmatched)) ∧
      rejected = Text.distinct ((resolve (.standard rules) schedule turn sessions request).states.flatMap (·.rejected)) := by
  obtain ⟨winner, failures, hresult, -⟩ := resolve_concludes (.standard rules) schedule turn sessions request
  rw [hresult] at he
  cases winner with
  | some w => nomatch he
  | none =>
    unfold conclusion at he
    dsimp only at he
    split at he
    · obtain ⟨-, -, hunmatched, hrejected⟩ := Error.notFound.inj (Except.error.inj he)
      exact ⟨hunmatched.symm, hrejected.symm⟩
    · nomatch he

end

/-- The report of a request that finds nothing is exact. A version is reported as not matched just if some repository listed it,
the policy came to it in that listing, and its text is not accepted or the metadata it needs is insufficient; and as rejected just
if some repository listed it, the policy came to it, the selector asks for it and a rule excludes it. No version is reported twice,
and the reports go by the order of registration, within a repository by the order of the listings, and within a listing from the
newest version to the oldest. -/
theorem notFound_reports {rules : Rules} {schedule : Schedule} {turn : Nat} {sessions : List Session} {request : Request}
    {text : String} {attempted unmatched rejected : List String}
    (he : (resolve (.standard rules) schedule turn sessions request).result =
      .error (.notFound text attempted unmatched rejected)) :
    let histories := (resolve (.standard rules) schedule turn sessions request).asked sessions
    (∀ v, v ∈ unmatched ↔ ∃ asked ∈ histories, ∃ versions ∈ listed asked, v ∈ versions ∧
        ∃ matcher, Matcher.ofSelector request.selector = .ok matcher ∧
          Policy.Reaches matcher rules (metadataAfter asked) versions v ∧
          (matcher.accepts ⟨v⟩ = false ∨ matcher.needsMetadata = true ∧ matcher.Insufficient (metadataAfter asked v))) ∧
      (∀ v, v ∈ rejected ↔ ∃ asked ∈ histories, ∃ versions ∈ listed asked, v ∈ versions ∧
        ∃ matcher, Matcher.ofSelector request.selector = .ok matcher ∧
          Policy.Reaches matcher rules (metadataAfter asked) versions v ∧
          (matcher.accepts ⟨v⟩ = true ∧ (matcher.needsMetadata = true →
            ∃ m, (metadataAfter asked v).result = some (.resolved m) ∧ matcher.acceptsMetadata m = true)) ∧
          rules.rejects ⟨v⟩ = true) ∧
      unmatched.Nodup ∧ rejected.Nodup ∧
      unmatched = Text.distinct (histories.flatMap fun asked =>
        (listed asked).flatMap (Policy.remarks rules request (metadataAfter asked) .unmatched)) ∧
      rejected = Text.distinct (histories.flatMap fun asked =>
        (listed asked).flatMap (Policy.remarks rules request (metadataAfter asked) .rejected)) := by
  intro histories
  obtain ⟨hunmatched, hrejected⟩ := reported_of_notFound he
  have hunmatched' := hunmatched.trans (distinct_remarks he .unmatched)
  have hrejected' := hrejected.trans (distinct_remarks he .rejected)
  refine ⟨fun v => ?_, fun v => ?_, ?_, ?_, hunmatched', hrejected'⟩
  · rw [hunmatched', mem_distinct_remarks]
    refine exists_congr fun asked => and_congr_right fun ha => exists_congr fun versions => and_congr_right fun _ =>
      and_congr_right fun _ => exists_congr fun matcher => and_congr_right fun hsel => and_congr_right fun _ => ?_
    exact Policy.applies_unmatched_iff rules v fun hneeds => available_of_notFound he ha matcher hsel hneeds v
  · rw [hrejected', mem_distinct_remarks]
    simp only [Policy.applies_rejected_iff]
    rfl
  · rw [hunmatched]
    exact Text.nodup_distinct _
  · rw [hrejected]
    exact Text.nodup_distinct _

/-- A repository that lists some versions nearby, not for certain, and others remotely. -/
def spread (name : String) (nearby remote : List String) : Session where
  repository := .ofCatalogues name (({} : Catalogue).putListing ⟨"g", "n"⟩ (.versions nearby))
    (({} : Catalogue).putListing ⟨"g", "n"⟩ (.versions remote))

/-- Two repositories with both kinds of versions in their listings. -/
def bothSpread : List Session := [spread "one" ["1.0", "2.0"] ["2.0", "1.1", "3.0"], spread "two" ["3.0", "1.2"] []]

/-- There, a rule excludes all that the selector asks for. -/
theorem notFound_reports_bothSpread :
    ∃ attempted unmatched rejected,
      (resolve (.standard noOnes) .inOrder 0 bothSpread ⟨"g", "n", "1.+"⟩).result =
        .error (.notFound "g:n:1.+" attempted unmatched rejected) ∧
      unmatched = ["2.0", "3.0"] ∧ rejected = ["1.0", "1.1", "1.2"] ∧ unmatched.Nodup ∧ rejected.Nodup ∧
      ("1.2" ∈ rejected ↔
        ∃ asked ∈ (resolve (.standard noOnes) .inOrder 0 bothSpread ⟨"g", "n", "1.+"⟩).asked bothSpread,
          ∃ versions ∈ listed asked, "1.2" ∈ versions ∧ ∃ matcher, Matcher.ofSelector "1.+" = .ok matcher ∧
            Policy.Reaches matcher noOnes (metadataAfter asked) versions "1.2" ∧
            (matcher.accepts ⟨"1.2"⟩ = true ∧ (matcher.needsMetadata = true →
              ∃ m, (metadataAfter asked "1.2").result = some (.resolved m) ∧ matcher.acceptsMetadata m = true)) ∧
            noOnes.rejects ⟨"1.2"⟩ = true) := by
  have hresult : (resolve (.standard noOnes) .inOrder 0 bothSpread ⟨"g", "n", "1.+"⟩).error? = some (.notFound "g:n:1.+"
      ["memory://one/local/g:n", "memory://one/remote/g:n", "memory://two/local/g:n", "memory://two/remote/g:n"]
      ["2.0", "3.0"] ["1.0", "1.1", "1.2"]) := by
    rw [Policy.standard_eq]
    decide +kernel
  have he := Run.result_of_error? hresult
  obtain ⟨-, hrejected, hnodup, hnodup', -, -⟩ := notFound_reports he
  exact ⟨_, _, _, he, rfl, rfl, hnodup, hnodup', hrejected "1.2"⟩

end Resolver

end VersionChain
