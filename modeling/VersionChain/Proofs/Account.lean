import VersionChain.Proofs.Advance

/-!
# What the state of a request accounts for

A step asks for a listing and then offers it to the policy. `Accounted` is what the steps of a request come to: the probes of the
state know just what the accesses of the request have answered.
-/

namespace VersionChain

theorem filter_isListing_eq_nil {lookups : History} (h : ∀ a ∈ lookups, a.isListing = false) :
    lookups.filter Access.isListing = [] :=
  List.filter_eq_nil_iff.mpr fun a ha => by simp [h a ha]

namespace RequestState

/-! ## What a step asks -/

/-- The state after its listing probe went one step further. -/
def afterListing (s : RequestState) : RequestState :=
  { s with listing := (s.listing.resolve s.visit).1, visit := (s.listing.resolve s.visit).2 }

/-- The state after the failure of its listing is taken in. -/
def failing (s : RequestState) (f : Failure) : RequestState :=
  { s with resolved := { s.resolved with result := some (.failed f) } }

/-- A step goes on by what is listed then. -/
theorem resolve_eq (policy : Policy) (turn : Nat) (s : RequestState) :
    s.resolve policy turn =
      match s.afterListing.listing.state with
      | some (.failed f) => (turn, s.afterListing.failing f)
      | some (.listed versions) => (turn + 1, s.afterListing.select policy turn versions)
      | none => (turn, s.afterListing) := rfl

/-- What a step leads to: the failure of the listing, a selection among the versions listed, or nothing new. -/
theorem resolve_cases (policy : Policy) (turn : Nat) (s : RequestState) :
    (∃ f, s.afterListing.listing.state = some (.failed f) ∧ (s.resolve policy turn).2 = s.afterListing.failing f) ∨
    (∃ versions, s.afterListing.listing.state = some (.listed versions) ∧
      (s.resolve policy turn).2 = s.afterListing.select policy turn versions) ∨
    s.afterListing.listing.state = none ∧ (s.resolve policy turn).2 = s.afterListing := by
  rw [resolve_eq]
  rcases s.afterListing.listing.state with _ | versions | f
  · exact Or.inr (Or.inr ⟨rfl, rfl⟩)
  · exact Or.inr (Or.inl ⟨versions, rfl, rfl⟩)
  · exact Or.inl ⟨f, rfl, rfl⟩

theorem resolve_advances {s : RequestState} (h : s.ProbesFit) (policy : Policy) (turn : Nat) :
    ∃ asked, s.afterListing.Advances asked (s.resolve policy turn).2 := by
  have h1 : s.afterListing.ProbesFit := h
  rcases resolve_cases policy turn s with ⟨f, -, ht⟩ | ⟨versions, -, ht⟩ | ⟨-, ht⟩ <;> rw [ht]
  · exact ⟨[], .of_eq h1 rfl rfl rfl rfl⟩
  · exact select_advances h1 policy turn versions
  · exact ⟨[], .refl h1⟩

/-- The state of a request about a session that has asked for just the given accesses, and knows just what they answered. -/
structure Accounted (request : Request) (session : Session) (asked : History) (s : RequestState) : Prop where
  about : s.request = request
  visit : ({ session } : Visit).Asks asked s.visit
  fit : s.ProbesFit
  listing : s.listing.Traced request (asked.filter Access.isListing)
  lookups : ∀ v, CandidateProbe.Traced (request.component v) (request.pinned v) (asked.filter (·.concerns v)) (s.found? v)

theorem accounted_start (request : Request) (session : Session) : (start request session).Accounted request session [] where
  about := rfl
  visit := .refl _
  fit := by simp [ProbesFit, start]
  listing := .fresh
  lookups := fun _ => .untried

theorem Accounted.advance {request : Request} {session : Session} {asked more : History} {s t : RequestState}
    (h : s.Accounted request session asked) (h' : s.Advances more t) : t.Accounted request session (asked ++ more) where
  about := h'.request.trans h.about
  visit := h.visit.trans h'.visit
  fit := h'.fit
  listing := by
    rw [List.filter_append, filter_isListing_eq_nil h'.lookups, List.append_nil, h'.listing]
    exact h.listing
  lookups := fun v => by
    have hv := h.lookups v
    rw [List.filter_append]
    cases hf : s.found? v with
    | none =>
      have hn := h'.new v hf
      rw [hf] at hv
      rw [h.about] at hn
      rw [asked_eq_nil_of_traced_none hv, List.nil_append]
      exact hn
    | some o =>
      obtain ⟨h1, h2⟩ := h'.known v o hf
      rw [h2, h1, List.append_nil, ← hf]
      exact hv

/-- A step of the listing probe keeps the account, with the listings that it adds. -/
theorem Accounted.afterListing {request : Request} {session : Session} {asked more : History} {s : RequestState}
    (h : s.Accounted request session asked) (hasks : s.visit.Asks more s.afterListing.visit)
    (hmore : ∀ a ∈ more, a.isListing = true)
    (htr : s.afterListing.listing.Traced request (asked.filter Access.isListing ++ more)) :
    s.afterListing.Accounted request session (asked ++ more) where
  about := h.about
  visit := h.visit.trans hasks
  fit := h.fit
  listing := by
    rw [List.filter_append, List.filter_eq_self.mpr hmore]
    exact htr
  lookups := fun v => by
    have hm : more.filter (·.concerns v) = [] := by
      rw [List.filter_eq_nil_iff]
      intro a ha
      have := hmore a ha
      cases a with
      | listing => simp [Access.concerns]
      | lookup => simp [Access.isListing] at this
    rw [List.filter_append, hm, List.append_nil]
    exact h.lookups v

/-- The first step: the nearby listing, the remote one exactly when the nearby tier knows nothing, then metadata. -/
theorem accounted_resolve_start (request : Request) (session : Session) (policy : Policy) (turn : Nat) :
    ∃ nearby more lookups,
      ((start request session).resolve policy turn).2.Accounted request session
        (.listing .nearby request nearby :: more ++ lookups) ∧
      (more = [] ∧ nearby.hasResult = true ∨
        (∃ remote, more = [.listing .remote request remote]) ∧ nearby.hasResult = false) ∧
      (((start request session).resolve policy turn).2.canGoFurther = true ↔
        nearby.hasResult = true ∧ nearby.authoritative = false) ∧
      ∀ a ∈ lookups, a.isListing = false := by
  have h0 := accounted_start request session
  obtain ⟨nearby, more, hasks, htr, hmore, hgo⟩ :=
    ListingProbe.traced_resolve_fresh request (start request session).visit
  have hl : ∀ a ∈ Access.listing .nearby request nearby :: more, a.isListing = true := by
    rcases hmore with ⟨rfl, -⟩ | ⟨⟨o, rfl⟩, -⟩ <;> simp [Access.isListing]
  have h1 := h0.afterListing hasks hl htr
  obtain ⟨lookups, h2⟩ := resolve_advances h0.fit policy turn
  refine ⟨nearby, more, lookups, h1.advance h2, hmore, ?_, h2.lookups⟩
  unfold canGoFurther
  rw [h2.listing]
  exact hgo

/-- A later step: the remote listing if it was left, then metadata. -/
theorem Accounted.resolve_later {request : Request} {session : Session} {asked : History} {s : RequestState}
    (h : s.Accounted request session asked) (hs : s.listing.stage ≠ .fresh) (policy : Policy) (turn : Nat) :
    ∃ more lookups,
      (s.resolve policy turn).2.Accounted request session (asked ++ more ++ lookups) ∧
      (s.canGoFurther = true → ∃ remote, more = [.listing .remote request remote]) ∧
      (s.canGoFurther = false → more = []) ∧
      (s.resolve policy turn).2.canGoFurther = false ∧
      ∀ a ∈ lookups, a.isListing = false := by
  obtain ⟨more, hasks, htr, hgo, hstop, hafter⟩ := h.listing.resolve_of_ne_fresh hs s.visit
  have hl : ∀ a ∈ more, a.isListing = true := by
    cases hc : s.canGoFurther with
    | true =>
      obtain ⟨o, rfl⟩ := hgo hc
      simp [Access.isListing]
    | false =>
      rw [hstop hc]
      simp
  have h1 := h.afterListing hasks hl htr
  obtain ⟨lookups, h2⟩ := resolve_advances h.fit policy turn
  refine ⟨more, lookups, h1.advance h2, hgo, hstop, ?_, h2.lookups⟩
  unfold canGoFurther
  rw [h2.listing]
  exact hafter

end RequestState

end VersionChain
