import VersionChain.Proofs.Diagnostics

/-!
# A repository that is asked step by step

One repository may be asked any number of steps for a request. Whatever its answers are, every step keeps the account of what was
asked, and a listing that is offered is the latest one that the repository gave.
-/

namespace VersionChain

namespace ListingProbe

/-- A listing probe asks for listings only. -/
theorem Traced.isListing {request : Request} {asked : History} {p : ListingProbe} (h : Traced request asked p) :
    ∀ a ∈ asked, a.isListing = true := by
  cases h <;> simp [Access.isListing]

/-- The versions that the probe has found are the latest that were listed. -/
theorem Traced.getLast?_listed {request : Request} {asked : History} {p : ListingProbe} {versions : List String}
    (h : Traced request asked p) (hp : p.state = some (.listed versions)) : (listed asked).getLast? = some versions := by
  have hone : ∀ o : ListingOutcome, listed [.listing .nearby request o] = (o.result.bind Listing.versions?).toList :=
    fun o => by rw [listed_cons]; exact List.append_nil _
  cases h with
  | fresh => nomatch hp
  | remoteLeft known pending =>
    rw [(remoteLeft known pending).state_eq] at hp
    rw [hone, hp]
    rfl
  | closed known final =>
    rw [(closed known final).state_eq] at hp
    rw [hone, hp]
    rfl
  | @both o o' pending =>
    rw [(both pending).state_both] at hp
    rw [listed_cons, listed_cons]
    cases ho : o'.result with
    | none =>
      rw [ho, Option.none_or] at hp
      rw [hp]
      rfl
    | some r =>
      rw [ho, Option.some_or] at hp
      rw [Option.some.inj hp]
      exact List.getLast?_concat

/-- Going one step further asks for listings, of which none lists versions unless the probe has versions then. -/
theorem Traced.resolve {request : Request} {asked : History} {p : ListingProbe} (h : Traced request asked p) (v : Visit) :
    ∃ more, v.Asks more (p.resolve v).2 ∧ Traced request (asked ++ more) (p.resolve v).1 ∧
      ((∀ versions, (p.resolve v).1.state ≠ some (.listed versions)) → listed more = []) := by
  have hnone : ∀ {r : Option Listing}, (∀ versions, r ≠ some (.listed versions)) → r.bind Listing.versions? = none := by
    rintro (_ | versions | f) hr
    · rfl
    · exact absurd rfl (hr versions)
    · rfl
  by_cases hp : p.stage = .fresh
  · cases h with
    | fresh =>
      obtain ⟨o, more, hasks, htr, hmore, -⟩ := traced_resolve_fresh request v
      refine ⟨_, hasks, htr, fun hno => ?_⟩
      rcases hmore with ⟨rfl, -⟩ | ⟨⟨o', rfl⟩, ho⟩
      · rw [htr.state_eq] at hno
        rw [listed_cons, hnone hno]
        rfl
      · have hor : o.result = none := by simpa [Outcome.hasResult] using ho
        rw [htr.state_both, hor, Option.or_none] at hno
        rw [listed_cons, listed_cons, hor, hnone hno]
        rfl
    | remoteLeft => cases hp
    | closed => cases hp
    | both => cases hp
  · obtain ⟨more, hasks, htr, hgo, hstop, -⟩ := h.resolve_of_ne_fresh hp v
    refine ⟨more, hasks, htr, fun hno => ?_⟩
    cases hc : p.canGoFurther with
    | false => rw [hstop hc]; rfl
    | true =>
      obtain ⟨o', rfl⟩ := hgo hc
      have hremote : o'.result.bind Listing.versions? = none := by
        refine hnone fun versions ho' => ?_
        cases h with
        | fresh => exact hp rfl
        | remoteLeft known pending => exact hno versions (by rw [htr.state_both, ho']; rfl)
        | closed => cases hc
        | both => cases hc
      rw [listed_cons, hremote]
      rfl

end ListingProbe

namespace RequestState

/-! ## One step -/

/-- What one step asks: listings, of which none lists versions unless some are offered then, and metadata. -/
theorem Accounted.resolve {request : Request} {session : Session} {asked : History} {s : RequestState}
    (h : s.Accounted request session asked) (policy : Policy) (turn : Nat) :
    ∃ more lookups, s.afterListing.Accounted request session (asked ++ more) ∧
      s.afterListing.Advances lookups (s.resolve policy turn).2 ∧
      ((∀ versions, s.afterListing.listing.state ≠ some (.listed versions)) → listed more = []) := by
  obtain ⟨more, hasks, htr, hnone⟩ := h.listing.resolve s.visit
  obtain ⟨lookups, hadv⟩ := resolve_advances h.fit policy turn
  refine ⟨more, lookups, h.afterListing hasks (fun a ha => ?_) htr, hadv, hnone⟩
  exact htr.isListing a (List.mem_append_right _ ha)

/-- Asking for metadata lists nothing. -/
theorem Advances.listed_eq {s t : RequestState} {lookups : History} (h : s.Advances lookups t) : listed lookups = [] := by
  rw [← listed_filter, filter_isListing_eq_nil h.lookups]
  rfl

/-- The versions that are offered are the latest that were listed. -/
theorem Accounted.getLast?_listed {request : Request} {session : Session} {asked : History} {s : RequestState}
    {versions : List String} (h : s.Accounted request session asked) (hl : s.listing.state = some (.listed versions)) :
    (listed asked).getLast? = some versions := by
  rw [← listed_filter]
  exact h.listing.getLast?_listed hl

/-! ## Any number of steps -/

/-- The next turn of the policy, and the state, when the repository was asked a number of steps. -/
def atStep (policy : Policy) (turn : Nat) (request : Request) (session : Session) : Nat → Nat × RequestState
  | 0 => (turn, start request session)
  | n + 1 =>
    let (turn, s) := atStep policy turn request session n
    s.resolve policy turn

/-- What holds at the start, and is kept by every step, holds at every step. -/
theorem atStep_induction {policy : Policy} {request : Request} {session : Session} {P : RequestState → Prop}
    (hstart : P (start request session)) (hstep : ∀ s turn, P s → P (s.resolve policy turn).2) (turn n : Nat) :
    P (atStep policy turn request session n).2 := by
  induction n with
  | zero => exact hstart
  | succ n ih => exact hstep _ _ ih

end RequestState

end VersionChain
