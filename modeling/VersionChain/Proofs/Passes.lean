import VersionChain.Proofs.Silence
import VersionChain.Resolver.Basic

/-!
# The passes of a request

A pass asks the repositories of its queue one step further each, in whatever order, and then classifies their states in the order
of registration: what a pass does to the state at each place, and what the classification collects.
-/

namespace VersionChain

namespace RequestState

/-- The metadata the request came to in this repository. -/
def adopted? (s : RequestState) : Option Metadata := s.outcome.bind Lookup.metadata?

/-- The failure the request came to in this repository. -/
def failure? (s : RequestState) : Option Failure :=
  match s.outcome with
  | some (.failed f) => some f
  | _ => none

/-- Nothing was resolved and nothing failed in this repository. -/
def FoundNothing (s : RequestState) : Prop := s.outcome = none ∨ s.outcome = some .missing

theorem FoundNothing.outcome_ne_resolved {s : RequestState} (h : s.FoundNothing) (m : Metadata) :
    s.outcome ≠ some (.resolved m) := by
  rcases h with h | h <;> rw [h] <;> nofun

theorem FoundNothing.outcome_ne_failed {s : RequestState} (h : s.FoundNothing) (f : Failure) :
    s.outcome ≠ some (.failed f) := by
  rcases h with h | h <;> rw [h] <;> nofun

/-- Nothing was found in this repository, and there is more to ask. -/
def isDeferred (s : RequestState) : Bool := (s.outcome == none || s.outcome == some .missing) && s.canGoFurther

theorem outcome_eq_of_isDeferred {s : RequestState} (h : s.isDeferred = true) :
    s.FoundNothing ∧ s.canGoFurther = true := by
  simpa [isDeferred, FoundNothing] using h

/-- Where nothing was resolved and nothing failed, nothing was found. -/
theorem foundNothing_of_none {s : RequestState} (hadopted : s.adopted? = none) (hfailure : s.failure? = none) :
    s.FoundNothing := by
  unfold adopted? at hadopted
  unfold failure? at hfailure
  unfold FoundNothing
  rcases hout : s.outcome with _ | _ | _ | _ <;> rw [hout] at hadopted hfailure
  · exact Or.inl rfl
  · nomatch hadopted
  · exact Or.inr rfl
  · nomatch hfailure

theorem FoundNothing.isDeferred {s : RequestState} (h : s.FoundNothing) (hgo : s.canGoFurther = true) :
    s.isDeferred = true := by
  unfold RequestState.isDeferred
  rcases h with h | h <;> rw [h, hgo] <;> rfl

theorem adopted?_eq_some_iff {s : RequestState} {m : Metadata} : s.adopted? = some m ↔ s.outcome = some (.resolved m) := by
  unfold adopted?
  rcases s.outcome with _ | _ | _ | _ <;> simp [Lookup.metadata?]

theorem failure?_eq_some_iff {s : RequestState} {f : Failure} : s.failure? = some f ↔ s.outcome = some (.failed f) := by
  unfold failure?
  rcases s.outcome with _ | _ | _ | _ <;> simp

end RequestState

namespace Resolver

/-! ## What a pass does to the states -/

theorem length_resolveAt (policy : Policy) (p : Progress) (i : Nat) :
    (resolveAt policy p i).states.length = p.states.length := by
  unfold resolveAt
  split
  · exact List.length_set
  · rfl

theorem getElem?_resolveAt_self (policy : Policy) (p : Progress) (i : Nat) :
    (resolveAt policy p i).states[i]? = (p.states[i]?).map fun s => (s.resolve policy p.turn).2 := by
  unfold resolveAt
  cases h : p.states[i]? with
  | none => exact h
  | some s =>
    have hi := (List.getElem?_eq_some_iff.mp h).1
    exact List.getElem?_set_self hi

theorem getElem?_resolveAt_ne (policy : Policy) (p : Progress) {i j : Nat} (h : j ≠ i) :
    (resolveAt policy p i).states[j]? = p.states[j]? := by
  unfold resolveAt
  split
  · exact List.getElem?_set_ne (Ne.symm h)
  · rfl

/-- Asking places in turn, each once, takes the state at each of them one step further and leaves the others. -/
theorem getElem?_foldl_resolveAt (policy : Policy) {order : List Nat} (h : order.Nodup) :
    ∀ (p : Progress) (i : Nat),
      (i ∉ order → (order.foldl (resolveAt policy) p).states[i]? = p.states[i]?) ∧
      (i ∈ order → ∃ turn, (order.foldl (resolveAt policy) p).states[i]? =
        (p.states[i]?).map fun s => (s.resolve policy turn).2) := by
  induction order with
  | nil => intro p i; simp
  | cons j order ih =>
    intro p i
    obtain ⟨hj, ho⟩ := List.nodup_cons.mp h
    obtain ⟨hout, hin⟩ := ih ho (resolveAt policy p j) i
    rw [List.foldl_cons]
    constructor
    · intro hi
      rw [List.mem_cons, not_or] at hi
      rw [hout hi.2, getElem?_resolveAt_ne policy p hi.1]
    · intro hi
      rcases List.mem_cons.mp hi with rfl | hi'
      · exact ⟨p.turn, by rw [hout hj, getElem?_resolveAt_self]⟩
      · have hij : i ≠ j := by
          rintro rfl
          exact hj hi'
        obtain ⟨turn, ht⟩ := hin hi'
        exact ⟨turn, by rw [ht, getElem?_resolveAt_ne policy p hij]⟩

theorem length_ask (policy : Policy) (schedule : Schedule) (queue : List Nat) (p : Progress) :
    (ask policy schedule queue p).states.length = p.states.length := by
  unfold ask
  generalize schedule.order queue = order
  induction order generalizing p with
  | nil => rfl
  | cons i order ih => rw [List.foldl_cons, ih, length_resolveAt]

/-- A pass takes the state at each queued place one step further, whatever the schedule, and leaves the others. -/
theorem getElem?_ask (policy : Policy) (schedule : Schedule) {queue : List Nat} (h : queue.Nodup) (p : Progress) (i : Nat) :
    (i ∉ queue → (ask policy schedule queue p).states[i]? = p.states[i]?) ∧
    (i ∈ queue → ∃ turn, (ask policy schedule queue p).states[i]? =
      (p.states[i]?).map fun s => (s.resolve policy turn).2) := by
  have hp := schedule.perm queue
  obtain ⟨hout, hin⟩ := getElem?_foldl_resolveAt policy (hp.nodup_iff.mpr h) p i
  exact ⟨fun hi => hout fun hi' => hi (hp.mem_iff.mp hi'), fun hi => hin (hp.mem_iff.mpr hi)⟩

/-! ## What the classification collects -/

theorem classifyStep_failures (policy : Policy) (states : List RequestState) (v : Verdicts) (i : Nat) :
    (classifyStep policy states v i).failures =
      v.failures ++ ((states[i]?).bind RequestState.failure?).toList := by
  unfold classifyStep RequestState.failure?
  cases states[i]? with
  | none => simp
  | some s =>
    rcases hs : s.outcome with _ | _ | _ | _ <;> simp [hs] <;> split <;> rfl

theorem classifyStep_deferred (policy : Policy) (states : List RequestState) (v : Verdicts) (i : Nat) :
    (classifyStep policy states v i).deferred =
      v.deferred ++ if (states[i]?).any RequestState.isDeferred then [i] else [] := by
  unfold classifyStep RequestState.isDeferred
  cases states[i]? with
  | none => simp
  | some s =>
    rcases hs : s.outcome with _ | _ | _ | _ <;> simp [hs] <;> split <;> simp_all

/-- The winner after the state at a further place is taken in. -/
def contend (policy : Policy) (states : List RequestState) (best : Option Winner) (i : Nat) : Option Winner :=
  match (states[i]?).bind RequestState.adopted? with
  | some m => some (better policy best ⟨i, m⟩)
  | none => best

theorem classifyStep_winner (policy : Policy) (states : List RequestState) (v : Verdicts) (i : Nat) :
    (classifyStep policy states v i).winner = contend policy states v.winner i := by
  unfold classifyStep contend RequestState.adopted?
  cases states[i]? with
  | none => rfl
  | some s =>
    rcases hs : s.outcome with _ | _ | _ | _ <;> simp [hs, Lookup.metadata?] <;> split <;> rfl

/-- The classification collects failures and deferrals in the order of the queue, and reduces the winner along it. -/
theorem foldl_classifyStep (policy : Policy) (states : List RequestState) (queue : List Nat) :
    ∀ v : Verdicts, queue.foldl (classifyStep policy states) v =
      { winner := queue.foldl (contend policy states) v.winner
        failures := v.failures ++ queue.filterMap fun i => (states[i]?).bind RequestState.failure?
        deferred := v.deferred ++ queue.filter fun i => (states[i]?).any RequestState.isDeferred } := by
  induction queue with
  | nil => intro v; simp
  | cons i queue ih =>
    intro v
    rw [List.foldl_cons, ih, classifyStep_winner, classifyStep_failures, classifyStep_deferred, List.foldl_cons,
      List.filterMap_cons, List.filter_cons]
    congr 1
    · cases (states[i]?).bind RequestState.failure? <;> simp
    · split <;> simp

theorem classify_eq (policy : Policy) (states : List RequestState) (queue : List Nat) :
    classify policy states queue =
      { winner := queue.foldl (contend policy states) none
        failures := queue.filterMap fun i => (states[i]?).bind RequestState.failure?
        deferred := queue.filter fun i => (states[i]?).any RequestState.isDeferred } := by
  unfold classify
  rw [foldl_classifyStep]
  simp

/-- The failures at the given places, in that order. -/
def failuresAt (states : List RequestState) (places : List Nat) : List Failure :=
  places.filterMap fun i => (states[i]?).bind RequestState.failure?

theorem classify_failures (policy : Policy) (states : List RequestState) (queue : List Nat) :
    (classify policy states queue).failures = failuresAt states queue := by
  rw [classify_eq]
  rfl

theorem mem_failuresAt {states : List RequestState} {places : List Nat} {f : Failure} :
    f ∈ failuresAt states places ↔ ∃ i ∈ places, (states[i]?).bind RequestState.failure? = some f := by
  unfold failuresAt
  exact List.mem_filterMap

/-- Once there is a winner there stays one. -/
theorem isSome_foldl_contend (policy : Policy) (states : List RequestState) (queue : List Nat) :
    ∀ best : Option Winner, (queue.foldl (contend policy states) best).isSome = true ↔
      best.isSome = true ∨ ∃ i ∈ queue, ((states[i]?).bind RequestState.adopted?).isSome = true := by
  induction queue with
  | nil => intro best; simp
  | cons i queue ih =>
    intro best
    rw [List.foldl_cons, ih]
    unfold contend
    cases hm : (states[i]?).bind RequestState.adopted? with
    | none => simp [hm]
    | some m => simp [hm]

/-- A pass has a winner exactly when a queued repository resolved the request. -/
theorem classify_winner_isSome_iff (policy : Policy) (states : List RequestState) (queue : List Nat) :
    (classify policy states queue).winner.isSome = true ↔
      ∃ i ∈ queue, ((states[i]?).bind RequestState.adopted?).isSome = true := by
  rw [classify_eq]
  simpa using isSome_foldl_contend policy states queue none

/-! ## What was told does not matter -/

theorem getElem?_bind_congr {α : Type} {l l' : List RequestState} (h : l.map RequestState.quiet = l'.map RequestState.quiet)
    (f : RequestState → Option α) (hf : ∀ s : RequestState, f s.quiet = f s) (i : Nat) : (l[i]?).bind f = (l'[i]?).bind f := by
  have hl : ∀ l : List RequestState, (l[i]?).bind f = ((l.map RequestState.quiet)[i]?).bind f := by
    intro l
    rw [List.getElem?_map]
    cases l[i]? with
    | none => rfl
    | some s => exact (hf s).symm
  rw [hl l, hl l', h]

theorem classify_congr {l l' : List RequestState} (h : l.map RequestState.quiet = l'.map RequestState.quiet) (policy : Policy)
    (queue : List Nat) : (classify policy l queue).winner = (classify policy l' queue).winner ∧
      (classify policy l queue).failures = (classify policy l' queue).failures := by
  have ha := getElem?_bind_congr h RequestState.adopted? fun _ => rfl
  have hf := getElem?_bind_congr h RequestState.failure? fun _ => rfl
  rw [classify_eq, classify_eq]
  unfold contend
  simp only [ha, hf, and_self]

theorem notFound_congr {l l' : List RequestState} (h : l.map RequestState.quiet = l'.map RequestState.quiet)
    (request : Request) : notFound request l = notFound request l' := by
  have hl : ∀ l : List RequestState, notFound request l = notFound request (l.map RequestState.quiet) := by
    intro l
    unfold notFound
    simp only [List.flatMap_map]
    rfl
  rw [hl l, hl l', h]

end Resolver

end VersionChain
