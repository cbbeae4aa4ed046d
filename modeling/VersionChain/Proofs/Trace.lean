import VersionChain.Probe.Candidate
import VersionChain.Probe.Listing

/-!
# What the probes of a request ask

What a request does in a repository shows in the accesses it adds to the repository's history. A listing probe and a candidate
probe add at most one access a tier each, the nearby tier first. `ListingProbe.Traced` and `CandidateProbe.Traced` say which
accesses have led to which state of a probe; going one step further keeps them.
-/

namespace VersionChain

/-! ## Sessions and visits that grow -/

/-- The session after further accesses. -/
def Session.after (s : Session) (asked : History) : Session := { s with history := s.history ++ asked }

@[simp] theorem Session.after_nil (s : Session) : s.after [] = s := by simp [Session.after]

@[simp] theorem Session.after_after (s : Session) (asked more : History) :
    (s.after asked).after more = s.after (asked ++ more) := by
  simp [Session.after]

theorem Session.after_inj {s : Session} {asked more : History} (h : s.after asked = s.after more) : asked = more :=
  List.append_cancel_left (congrArg Session.history h)

namespace Access

/-- Whether the access asks for the versions of a module. -/
def isListing : Access → Bool
  | listing .. => true
  | lookup .. => false

/-- Whether the access asks for the metadata of a component of the given version. -/
def concerns (version : String) : Access → Bool
  | listing .. => false
  | lookup _ component _ _ => component.version == version

/-- The answer of the access is one that the repository gives, after some history. -/
def AnsweredBy (r : Repository) : Access → Prop
  | listing tier request o => ∃ history, (r.source tier).list history request = o
  | lookup tier component requested o => ∃ history, (r.source tier).lookup history component requested = o

@[simp] theorem failure?_listing {tier : Tier} {request : Request} {o : ListingOutcome} {f : Failure} :
    (listing tier request o).failure? = some f ↔ o.result = some (.failed f) := by
  unfold failure?
  dsimp only
  rcases o.result with _ | _ | _ <;> simp

@[simp] theorem failure?_lookup {tier : Tier} {component : Component} {requested : Request} {o : LookupOutcome} {f : Failure} :
    (lookup tier component requested o).failure? = some f ↔ o.result = some (.failed f) := by
  unfold failure?
  dsimp only
  rcases o.result with _ | _ | _ | _ <;> simp

end Access

namespace Visit

/-- A visit becomes another one by the given accesses, which the repository answered. -/
structure Asks (v : Visit) (asked : History) (w : Visit) : Prop where
  session : w.session = v.session.after asked
  answered : ∀ a ∈ asked, a.AnsweredBy v.session.repository

theorem Asks.refl (v : Visit) : v.Asks [] v := ⟨by simp, by simp⟩

theorem Asks.trans {v w x : Visit} {asked more : History} (h : v.Asks asked w) (h' : w.Asks more x) :
    v.Asks (asked ++ more) x := by
  refine ⟨by rw [h'.session, h.session, Session.after_after], fun a ha => ?_⟩
  rcases List.mem_append.mp ha with ha | ha
  · exact h.answered a ha
  · have := h'.answered a ha
    rwa [h.session] at this

theorem asks_list (v : Visit) (tier : Tier) (request : Request) :
    v.Asks [.listing tier request (v.list tier request).1] (v.list tier request).2 := by
  refine ⟨rfl, fun a ha => ?_⟩
  rw [List.mem_singleton] at ha
  subst ha
  exact ⟨_, rfl⟩

theorem asks_lookup (v : Visit) (tier : Tier) (component : Component) (requested : Request) :
    v.Asks [.lookup tier component requested (v.lookup tier component requested).1] (v.lookup tier component requested).2 := by
  refine ⟨rfl, fun a ha => ?_⟩
  rw [List.mem_singleton] at ha
  subst ha
  exact ⟨_, rfl⟩

end Visit

/-! ## Listing probes -/

namespace ListingProbe

/-- The accesses that have led to a state of the listing probe of a request. -/
inductive Traced (request : Request) : History → ListingProbe → Prop where
  | fresh : Traced request [] { request }
  | remoteLeft {o : ListingOutcome} (known : o.hasResult = true) (pending : o.authoritative = false) :
      Traced request [.listing .nearby request o] ⟨request, .remoteLeft, Outcome.unknown.absorb o⟩
  | closed {o : ListingOutcome} (known : o.hasResult = true) (final : o.authoritative = true) :
      Traced request [.listing .nearby request o] ⟨request, .settled, Outcome.unknown.absorb o⟩
  | both {o o' : ListingOutcome} (pending : o.hasResult = true → o.authoritative = false) :
      Traced request [.listing .nearby request o, .listing .remote request o']
        ⟨request, .settled, (Outcome.unknown.absorb o).absorb o'⟩

/-- A probe that has asked is past its beginning. -/
theorem Traced.stage_ne_fresh {request : Request} {a : Access} {asked : History} {p : ListingProbe}
    (h : Traced request (a :: asked) p) : p.stage ≠ .fresh := by
  cases h <;> nofun

/-- The first step asks the nearby tier, and the remote one exactly when the nearby tier knows nothing. The remote tier is left
for later exactly when the nearby answer is a result without authority. -/
theorem traced_resolve_fresh (request : Request) (v : Visit) :
    ∃ o more, v.Asks (.listing .nearby request o :: more) (ListingProbe.resolve { request } v).2 ∧
      Traced request (.listing .nearby request o :: more) (ListingProbe.resolve { request } v).1 ∧
      (more = [] ∧ o.hasResult = true ∨ (∃ o', more = [.listing .remote request o']) ∧ o.hasResult = false) ∧
      ((ListingProbe.resolve { request } v).1.canGoFurther = true ↔ o.hasResult = true ∧ o.authoritative = false) := by
  have h1 := v.asks_list .nearby request
  generalize hl : v.list .nearby request = l at h1
  obtain ⟨o, v1⟩ := l
  have hu : (Outcome.unknown.absorb o).hasResult = o.hasResult := Outcome.hasResult_absorb _ _
  by_cases hr : o.hasResult = true
  · have ha : (Outcome.unknown.absorb o).authoritative = o.authoritative := by simp [Outcome.absorb, hr]
    refine ⟨o, [], ?_⟩
    by_cases hf : o.authoritative = true
    · have heq : ListingProbe.resolve { request } v = (⟨request, .settled, Outcome.unknown.absorb o⟩, v1) := by
        simp [resolve, ask, hl, hu, hr, ha, hf]
      rw [heq]
      exact ⟨h1, .closed hr hf, Or.inl ⟨rfl, hr⟩, by simp [canGoFurther, hf]⟩
    · have hf' : o.authoritative = false := by simpa using hf
      have heq : ListingProbe.resolve { request } v = (⟨request, .remoteLeft, Outcome.unknown.absorb o⟩, v1) := by
        simp [resolve, ask, hl, hu, hr, ha, hf']
      rw [heq]
      exact ⟨h1, .remoteLeft hr hf', Or.inl ⟨rfl, hr⟩, by simp [canGoFurther, hr, hf']⟩
  · have hr' : o.hasResult = false := by simpa using hr
    have h2 := v1.asks_list .remote request
    generalize hl' : v1.list .remote request = l' at h2
    obtain ⟨o', v2⟩ := l'
    have heq : ListingProbe.resolve { request } v =
        (⟨request, .settled, (Outcome.unknown.absorb o).absorb o'⟩, v2) := by
      simp [resolve, ask, askRemote, hl, hl', hu, hr']
    rw [heq]
    exact ⟨o, [.listing .remote request o'], h1.trans h2, .both (by simp [hr']), Or.inr ⟨⟨o', rfl⟩, hr'⟩,
      by simp [canGoFurther, hr']⟩

/-- A later step asks the remote tier if it was left, and nothing otherwise. -/
theorem Traced.resolve_of_ne_fresh {request : Request} {asked : History} {p : ListingProbe} (h : Traced request asked p)
    (hp : p.stage ≠ .fresh) (v : Visit) :
    ∃ more, v.Asks more (p.resolve v).2 ∧ Traced request (asked ++ more) (p.resolve v).1 ∧
      (p.canGoFurther = true → ∃ o, more = [.listing .remote request o]) ∧ (p.canGoFurther = false → more = []) ∧
      (p.resolve v).1.canGoFurther = false := by
  cases h with
  | fresh => exact absurd rfl hp
  | remoteLeft known pending =>
    exact ⟨_, v.asks_list .remote request, .both fun _ => pending, fun _ => ⟨_, rfl⟩, nofun, rfl⟩
  | closed known final => exact ⟨[], .refl v, .closed known final, nofun, fun _ => rfl, rfl⟩
  | both pending => exact ⟨[], .refl v, .both pending, nofun, fun _ => rfl, rfl⟩

end ListingProbe

/-! ## Candidate probes -/

namespace CandidateProbe

/-- The accesses that have led to what is known of the metadata of a component. -/
inductive Traced (component : Component) (requested : Request) : History → Option LookupOutcome → Prop where
  | untried : Traced component requested [] none
  | nearby {o : LookupOutcome} (enough : needsRemote o = false) :
      Traced component requested [.lookup .nearby component requested o] (some (Outcome.unknown.absorb o))
  | both {o o' : LookupOutcome} (silent : needsRemote o = true) :
      Traced component requested [.lookup .nearby component requested o, .lookup .remote component requested o']
        (some ((Outcome.unknown.absorb o).absorb o'))

/-- A probe asks about its own version only. -/
theorem Traced.concerns {component : Component} {requested : Request} {asked : History} {found : Option LookupOutcome}
    (h : Traced component requested asked found) :
    ∀ a ∈ asked, a.isListing = false ∧ ∀ w, a.concerns w = (component.version == w) := by
  cases h <;> simp [Access.isListing, Access.concerns]

theorem Traced.filter_concerns_self {component : Component} {requested : Request} {asked : History}
    {found : Option LookupOutcome} (h : Traced component requested asked found) :
    asked.filter (·.concerns component.version) = asked := by
  rw [List.filter_eq_self]
  intro a ha
  rw [(h.concerns a ha).2, beq_self_eq_true]

theorem Traced.filter_concerns_ne {component : Component} {requested : Request} {asked : History}
    {found : Option LookupOutcome} (h : Traced component requested asked found) {w : String} (hw : component.version ≠ w) :
    asked.filter (·.concerns w) = [] := by
  rw [List.filter_eq_nil_iff]
  intro a ha
  rw [(h.concerns a ha).2, beq_iff_eq]
  exact hw

/-- A search asks the nearby tier, then the remote one where needed, and comes to what the accesses say. -/
theorem traced_search (p : CandidateProbe) (v : Visit) :
    ∃ asked, v.Asks asked (p.search v).2 ∧ Traced p.component p.requested asked (some (p.search v).1) := by
  have h1 := v.asks_lookup .nearby p.component p.requested
  unfold search
  generalize v.lookup .nearby p.component p.requested = l at h1
  obtain ⟨o, v1⟩ := l
  by_cases hn : needsRemote o = true
  · have h2 := v1.asks_lookup .remote p.component p.requested
    generalize hl' : v1.lookup .remote p.component p.requested = l' at h2
    obtain ⟨o', v2⟩ := l'
    exact ⟨_, by simpa [hn, hl'] using h1.trans h2, by simpa [hn, hl'] using Traced.both hn⟩
  · have hn' : needsRemote o = false := by simpa using hn
    exact ⟨_, by simpa [hn'] using h1, by simpa [hn'] using Traced.nearby hn'⟩

/-- A nearby answer after which the remote tier is asked is none, or that the component is missing, without authority. -/
theorem needsRemote_iff (o : LookupOutcome) :
    needsRemote o = true ↔ o.result = none ∨ o.result = some .missing ∧ o.authoritative = false := by
  unfold needsRemote
  rcases o.result with _ | _ | _ | _ <;> simp [Lookup.isConclusive]

end CandidateProbe

end VersionChain
