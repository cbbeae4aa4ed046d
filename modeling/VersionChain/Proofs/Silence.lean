import VersionChain.Proofs.Account

/-!
# The log has no influence

Nothing a state does depends on what was told before: a state with its log emptied goes on as the state itself, up to the log.
Between the passes of a request the logs are emptied, so this is why the second pass goes on where the first one ended.
-/

namespace VersionChain

namespace Visit

/-- The visit with its log emptied. -/
def quiet (v : Visit) : Visit := { v with log := [] }

end Visit

theorem CandidateProbe.search_quiet (p : CandidateProbe) (v : Visit) :
    (p.search v.quiet).1 = (p.search v).1 ∧ (p.search v.quiet).2.quiet = (p.search v).2.quiet := by
  by_cases hn : needsRemote (v.lookup .nearby p.component p.requested).1 = true
  · have hn' : needsRemote (v.quiet.lookup .nearby p.component p.requested).1 = true := hn
    simp only [search, hn, hn', if_true]
    exact ⟨rfl, rfl⟩
  · have hn' : ¬needsRemote (v.quiet.lookup .nearby p.component p.requested).1 = true := hn
    simp only [search, if_neg hn, if_neg hn']
    exact ⟨rfl, rfl⟩

theorem CandidateProbe.resolve_quiet (p : CandidateProbe) (v : Visit) :
    (p.resolve v.quiet).1 = (p.resolve v).1 ∧ (p.resolve v.quiet).2.1 = (p.resolve v).2.1 ∧
      (p.resolve v.quiet).2.2.quiet = (p.resolve v).2.2.quiet := by
  obtain ⟨h1, h2⟩ := p.search_quiet v
  unfold resolve
  cases p.found with
  | some o => exact ⟨rfl, rfl, rfl⟩
  | none =>
    dsimp only
    rw [h1]
    exact ⟨rfl, rfl, h2⟩

theorem ListingProbe.resolve_quiet (p : ListingProbe) (v : Visit) :
    (p.resolve v.quiet).1 = (p.resolve v).1 ∧ (p.resolve v.quiet).2.quiet = (p.resolve v).2.quiet := by
  unfold resolve
  cases p.stage with
  | fresh =>
    have h1 : (p.ask .nearby v.quiet).1 = (p.ask .nearby v).1 := rfl
    dsimp only
    rw [h1]
    by_cases hr : (p.ask .nearby v).1.outcome.hasResult = true
    · simp only [hr, if_true]
      exact ⟨trivial, rfl⟩
    · simp only [if_neg hr]
      exact ⟨rfl, rfl⟩
  | remoteLeft => exact ⟨rfl, rfl⟩
  | settled => exact ⟨rfl, rfl⟩

namespace RequestState

/-- The state with its log emptied. -/
def quiet (s : RequestState) : RequestState := { s with visit := s.visit.quiet }

@[simp] theorem quiet_quiet (s : RequestState) : s.quiet.quiet = s.quiet := rfl

theorem consult_quiet (s : RequestState) (v : String) :
    (s.quiet.consult v).1 = (s.consult v).1 ∧ (s.quiet.consult v).2.quiet = (s.consult v).2.quiet := by
  have hw : s.quiet.withProbe v = (s.withProbe v).quiet := by
    unfold withProbe
    have hp : s.quiet.probe? v = s.probe? v := rfl
    rw [hp]
    split <;> rfl
  obtain ⟨h1, h2, h3⟩ := ((s.probe? v).getD (.new s.request v)).resolve_quiet s.visit
  refine ⟨h1, ?_⟩
  have heq : ∀ t : RequestState, (t.consult v).2 = { (t.withProbe v).putProbe
      (((t.probe? v).getD (.new t.request v)).resolve t.visit).2.1 with
      visit := (((t.probe? v).getD (.new t.request v)).resolve t.visit).2.2 } := fun _ => rfl
  have hq : (((s.quiet.probe? v).getD (.new s.quiet.request v)).resolve s.quiet.visit) =
      (((s.probe? v).getD (.new s.request v)).resolve s.visit.quiet) := rfl
  rw [heq, heq, hq, hw, h2]
  unfold quiet putProbe
  dsimp only
  rw [h3]

/-! ## States that differ in what was told go on alike -/

theorem consult_congr {s t : RequestState} (h : s.quiet = t.quiet) (v : String) :
    (s.consult v).1 = (t.consult v).1 ∧ (s.consult v).2.quiet = (t.consult v).2.quiet := by
  obtain ⟨hs1, hs2⟩ := consult_quiet s v
  obtain ⟨ht1, ht2⟩ := consult_quiet t v
  rw [h] at hs1 hs2
  exact ⟨hs1.symm.trans ht1, hs2.symm.trans ht2⟩

theorem taken_congr (c : Component) {r r' : LookupOutcome × RequestState} (h1 : r.1 = r'.1) (h2 : r.2.quiet = r'.2.quiet) :
    (taken c r).quiet = (taken c r').quiet := by
  have hq : ∀ x : LookupOutcome × RequestState, (taken c x).quiet = { x.2.quiet with
      selected := (CandidateProbe.report x.1 x.2.quiet.resolved).1
      resolved := (CandidateProbe.report x.1 x.2.quiet.resolved).2 } := by
    intro x
    unfold taken
    dsimp only
    split <;> rfl
  rw [hq, hq, h1, h2]

theorem adopt_congr {s t : RequestState} (h : s.quiet = t.quiet) (c : Component) :
    (s.adopt c).quiet = (t.adopt c).quiet := by
  have hn : ∀ u : RequestState, (u.noticing c).quiet = u.quiet := by
    intro u
    unfold noticing
    split <;> rfl
  obtain ⟨h1, h2⟩ := consult_congr (by rw [hn, hn, h] : (s.noticing c).quiet = (t.noticing c).quiet) c.version
  rw [adopt_eq, adopt_eq]
  exact taken_congr c h1 h2

theorem apply_congr {s t : RequestState} (h : s.quiet = t.quiet) (verdict : Verdict) :
    (s.apply verdict).quiet = (t.apply verdict).quiet := by
  cases verdict with
  | isMatch c =>
    have hm : ({ s with matching := s.matching ++ [c.version] } : RequestState).quiet =
        ({ t with matching := t.matching ++ [c.version] } : RequestState).quiet :=
      congrArg (fun u : RequestState => { u with matching := u.matching ++ [c.version] }) h
    have hsel : s.selected = t.selected := congrArg (·.selected) h
    unfold apply
    dsimp only
    by_cases ht : t.selected.isSome = true
    · rw [if_pos ht, if_pos (by rwa [hsel])]
      exact hm
    · rw [if_neg ht, if_neg (by rwa [hsel])]
      exact adopt_congr hm c
  | notMatched v => exact congrArg (fun u : RequestState => { u with unmatched := Text.insertNew u.unmatched v }) h
  | rejected v => exact congrArg (fun u : RequestState => { u with rejected := Text.insertNew u.rejected v }) h
  | noMatch =>
    exact congrArg (fun u : RequestState => { u with resolved := { u.resolved with result := some .missing } }) h
  | failed f =>
    exact congrArg (fun u : RequestState => { u with resolved := { u.resolved with result := some (.failed f) } }) h

theorem follow_congr (offered : List String) (sel : Selection) :
    ∀ {s t : RequestState}, s.quiet = t.quiet → (follow offered sel s).quiet = (follow offered sel t).quiet := by
  induction sel with
  | done => intro s t h; exact h
  | report verdict next ih => intro s t h; exact ih (apply_congr h verdict)
  | inspect position next ih =>
    intro s t h
    unfold follow
    cases offered[position]? with
    | none => exact ih .unknown h
    | some v =>
      obtain ⟨h1, h2⟩ := consult_congr h v
      dsimp only
      rw [h1]
      exact ih _ h2

theorem foldl_withProbe_congr (versions : List String) :
    ∀ {s t : RequestState}, s.quiet = t.quiet →
      (versions.foldl withProbe s).quiet = (versions.foldl withProbe t).quiet := by
  induction versions with
  | nil => intro s t h; exact h
  | cons v versions ih =>
    intro s t h
    apply ih
    have hw : ∀ u : RequestState, (u.withProbe v).quiet = u.quiet.withProbe v := by
      intro u
      unfold withProbe
      have hp : u.quiet.probe? v = u.probe? v := rfl
      rw [hp]
      split <;> rfl
    rw [hw, hw, h]

theorem conclude_congr {s t : RequestState} (h : s.quiet = t.quiet) : s.conclude.quiet = t.conclude.quiet := by
  have hc : ∀ u : RequestState, u.conclude.quiet = u.quiet.conclude := by
    intro u
    unfold conclude
    have hs : u.quiet.selected = u.selected := rfl
    rw [hs]
    cases u.selected <;> rfl
  rw [hc, hc, h]

/-- A step goes on alike, whatever was told before. -/
theorem resolve_congr (policy : Policy) (turn : Nat) {s t : RequestState} (h : s.quiet = t.quiet) :
    (s.resolve policy turn).1 = (t.resolve policy turn).1 ∧
      (s.resolve policy turn).2.quiet = (t.resolve policy turn).2.quiet := by
  have hl : s.afterListing.quiet = t.afterListing.quiet := by
    have ha : ∀ u : RequestState, u.afterListing.quiet = u.quiet.afterListing.quiet := by
      intro u
      obtain ⟨h1, h2⟩ := u.listing.resolve_quiet u.visit
      unfold afterListing quiet
      dsimp only
      rw [h1, h2]
    rw [ha s, ha t, h]
  have hst : s.afterListing.listing = t.afterListing.listing := congrArg (·.listing) hl
  rw [resolve_eq, resolve_eq, hst]
  cases t.afterListing.listing.state with
  | none => exact ⟨rfl, hl⟩
  | some r =>
    cases r with
    | failed f =>
      exact ⟨rfl, congrArg (fun u : RequestState => { u with resolved := { u.resolved with result := some (.failed f) } }) hl⟩
    | listed versions =>
      have hr : s.afterListing.request = t.afterListing.request := congrArg (·.request) hl
      have hm : ({ s.afterListing with matching := [] } : RequestState).quiet =
          ({ t.afterListing with matching := [] } : RequestState).quiet :=
        congrArg (fun u : RequestState => { u with matching := [] }) hl
      have hf := foldl_withProbe_congr versions hm
      have hq : (versions.foldl withProbe { s.afterListing with matching := [] }).request =
          (versions.foldl withProbe { t.afterListing with matching := [] }).request := congrArg (·.request) hf
      refine ⟨rfl, conclude_congr ?_⟩
      rw [hq]
      exact follow_congr versions _ hf

theorem accounted_quiet_iff {request : Request} {session : Session} {asked : History} {s : RequestState} :
    s.quiet.Accounted request session asked ↔ s.Accounted request session asked :=
  ⟨fun h => ⟨h.about, ⟨h.visit.session, h.visit.answered⟩, h.fit, h.listing, h.lookups⟩,
    fun h => ⟨h.about, ⟨h.visit.session, h.visit.answered⟩, h.fit, h.listing, h.lookups⟩⟩

end RequestState

end VersionChain
