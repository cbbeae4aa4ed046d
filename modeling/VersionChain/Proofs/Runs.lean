import VersionChain.Proofs.Passes

/-!
# A request in passes

A request is one pass over all repositories and, when that has no winner, a second one over the deferred ones. Here it is taken
apart: how the state at each place comes about, and how the result follows from the states.
-/

namespace VersionChain

namespace Resolver

/-! ## The two passes -/

/-- The states after every repository was asked one step. -/
def firstPass (policy : Policy) (schedule : Schedule) (turn : Nat) (sessions : List Session) (request : Request) : Progress :=
  ask policy schedule (List.range sessions.length) ⟨turn, sessions.map (RequestState.start request)⟩

/-- What the first pass has shown. -/
def firstVerdicts (policy : Policy) (schedule : Schedule) (turn : Nat) (sessions : List Session) (request : Request) :
    Verdicts :=
  classify policy (firstPass policy schedule turn sessions request).states (List.range sessions.length)

theorem getElem?_silenced (states : List RequestState) (i : Nat) :
    (silenced states)[i]? = (states[i]?).map RequestState.quiet := by
  have hs : silenced states = states.map RequestState.quiet := rfl
  rw [hs, List.getElem?_map]

/-- The states after the deferred repositories were asked a second step. -/
def secondPass (policy : Policy) (schedule : Schedule) (turn : Nat) (sessions : List Session) (request : Request) : Progress :=
  let first := firstPass policy schedule turn sessions request
  ask policy schedule (firstVerdicts policy schedule turn sessions request).deferred
    { first with states := silenced first.states }

/-- The result that a winner, or the failures and the states, amount to. -/
def conclusion (request : Request) (winner : Option Winner) (failures : List Failure) (states : List RequestState) :
    Except Error Resolution :=
  match winner with
  | some w => .ok ⟨(states[w.place]?.map (·.visit.name)).getD "", w.metadata⟩
  | none => if failures.isEmpty then .error (notFound request states) else .error (.unresolved request.text failures)

theorem finish_result (request : Request) (winner : Option Winner) (failures : List Failure) (p : Progress) (log : Log) :
    (finish request winner failures p log).result = conclusion request winner failures p.states := by
  cases winner <;> rfl

theorem finish_states (request : Request) (winner : Option Winner) (failures : List Failure) (p : Progress) (log : Log) :
    (finish request winner failures p log).states = p.states := by
  cases winner <;> rfl

section

variable (policy : Policy) (schedule : Schedule) (turn : Nat) (sessions : List Session) (request : Request)

theorem mem_deferred_iff {i : Nat} :
    i ∈ (firstVerdicts policy schedule turn sessions request).deferred ↔
      i < sessions.length ∧ ((firstPass policy schedule turn sessions request).states[i]?).any RequestState.isDeferred = true := by
  rw [firstVerdicts, classify_eq]
  simp [List.mem_filter]

theorem nodup_deferred : (firstVerdicts policy schedule turn sessions request).deferred.Nodup := by
  rw [firstVerdicts, classify_eq]
  exact List.nodup_range.filter _

/-- With a winner in the first pass, no repository is asked again. -/
theorem resolve_of_winner {w : Winner} (h : (firstVerdicts policy schedule turn sessions request).winner = some w) :
    (resolve policy schedule turn sessions request).states = (firstPass policy schedule turn sessions request).states ∧
      (resolve policy schedule turn sessions request).result =
        conclusion request (some w) [] (firstPass policy schedule turn sessions request).states := by
  have hw : (classify policy (ask policy schedule (List.range sessions.length)
      ⟨turn, sessions.map (RequestState.start request)⟩).states (List.range sessions.length)).winner = some w := h
  unfold resolve
  dsimp only
  rw [hw]
  simp only [Option.isNone_some, Bool.false_and, Bool.false_eq_true, if_false]
  rw [finish_states, finish_result]
  exact ⟨rfl, rfl⟩

/-- Without a winner in the first pass and with nothing to ask again, the failures of the first pass decide. -/
theorem resolve_of_no_deferred (h : (firstVerdicts policy schedule turn sessions request).winner = none)
    (hd : (firstVerdicts policy schedule turn sessions request).deferred = []) :
    (resolve policy schedule turn sessions request).states = (firstPass policy schedule turn sessions request).states ∧
      (resolve policy schedule turn sessions request).result =
        conclusion request none (firstVerdicts policy schedule turn sessions request).failures
          (firstPass policy schedule turn sessions request).states := by
  have hw : (classify policy (ask policy schedule (List.range sessions.length)
      ⟨turn, sessions.map (RequestState.start request)⟩).states (List.range sessions.length)).winner = none := h
  have hd' : (classify policy (ask policy schedule (List.range sessions.length)
      ⟨turn, sessions.map (RequestState.start request)⟩).states (List.range sessions.length)).deferred = [] := hd
  unfold resolve
  dsimp only
  rw [hw, hd']
  simp only [List.isEmpty_nil, Bool.not_true, Bool.and_false, Bool.false_eq_true, if_false]
  rw [finish_states, finish_result]
  exact ⟨rfl, rfl⟩

/-- Without a winner in the first pass, the deferred repositories are asked again, and the failures of both passes count. -/
theorem resolve_of_deferred (h : (firstVerdicts policy schedule turn sessions request).winner = none)
    (hd : (firstVerdicts policy schedule turn sessions request).deferred ≠ []) :
    let second := secondPass policy schedule turn sessions request
    let first := firstVerdicts policy schedule turn sessions request
    let further := classify policy second.states first.deferred
    (resolve policy schedule turn sessions request).states = second.states ∧
      (resolve policy schedule turn sessions request).result =
        conclusion request further.winner (first.failures ++ further.failures) second.states := by
  have hw : (classify policy (ask policy schedule (List.range sessions.length)
      ⟨turn, sessions.map (RequestState.start request)⟩).states (List.range sessions.length)).winner = none := h
  have hd' : (classify policy (ask policy schedule (List.range sessions.length)
      ⟨turn, sessions.map (RequestState.start request)⟩).states (List.range sessions.length)).deferred.isEmpty = false := by
    rw [List.isEmpty_eq_false_iff]
    exact hd
  unfold resolve
  dsimp only
  rw [hw, hd']
  simp only [Option.isNone_none, Bool.not_false, Bool.and_self, if_true]
  rw [finish_states, finish_result]
  exact ⟨rfl, rfl⟩

/-- The state at each place after the first pass. -/
theorem getElem?_firstPass (i : Nat) :
    ∃ turn', (firstPass policy schedule turn sessions request).states[i]? =
      (sessions[i]?).map fun session => ((RequestState.start request session).resolve policy turn').2 := by
  obtain ⟨hout, hin⟩ := getElem?_ask policy schedule (List.nodup_range (n := sessions.length))
    ⟨turn, sessions.map (RequestState.start request)⟩ i
  by_cases hi : i < sessions.length
  · obtain ⟨turn', ht⟩ := hin (List.mem_range.mpr hi)
    exact ⟨turn', by rw [firstPass, ht, List.getElem?_map, Option.map_map]; rfl⟩
  · refine ⟨0, ?_⟩
    rw [firstPass, hout (by simpa using hi), List.getElem?_map]
    simp [List.getElem?_eq_none (Nat.le_of_not_lt hi)]

/-- The state at each place after the second pass. -/
theorem getElem?_secondPass (i : Nat) :
    (i ∉ (firstVerdicts policy schedule turn sessions request).deferred →
      (secondPass policy schedule turn sessions request).states[i]? =
        ((firstPass policy schedule turn sessions request).states[i]?).map RequestState.quiet) ∧
    (i ∈ (firstVerdicts policy schedule turn sessions request).deferred →
      ∃ turn', (secondPass policy schedule turn sessions request).states[i]? =
        ((firstPass policy schedule turn sessions request).states[i]?).map fun s => (s.quiet.resolve policy turn').2) := by
  obtain ⟨hout, hin⟩ := getElem?_ask policy schedule (nodup_deferred policy schedule turn sessions request)
    { firstPass policy schedule turn sessions request with
      states := silenced (firstPass policy schedule turn sessions request).states } i
  constructor
  · intro hi
    rw [secondPass, hout hi]
    exact getElem?_silenced _ i
  · intro hi
    obtain ⟨turn', ht⟩ := hin hi
    refine ⟨turn', ?_⟩
    rw [secondPass, ht]
    have hq := getElem?_silenced (firstPass policy schedule turn sessions request).states i
    dsimp only
    rw [hq, Option.map_map]
    rfl

/-- How the state at a place comes about: by one step, and by a second one exactly when the first pass had no winner and deferred
the place. What was told apart, the state is the one the steps lead to. -/
theorem states_resolve {i : Nat} {session : Session} (hi : sessions[i]? = some session) :
    ∃ s t, (firstPass policy schedule turn sessions request).states[i]? = some s ∧
      (∃ turn', s = ((RequestState.start request session).resolve policy turn').2) ∧
      (resolve policy schedule turn sessions request).states[i]? = some t ∧
      ((firstVerdicts policy schedule turn sessions request).winner = none ∧ s.isDeferred = true ∧
          (∃ turn', t = (s.quiet.resolve policy turn').2) ∨
        ¬((firstVerdicts policy schedule turn sessions request).winner = none ∧ s.isDeferred = true) ∧ t.quiet = s.quiet) := by
  obtain ⟨turn', hs⟩ := getElem?_firstPass policy schedule turn sessions request i
  rw [hi, Option.map_some] at hs
  obtain ⟨hout, hin⟩ := getElem?_secondPass policy schedule turn sessions request i
  have hmem := mem_deferred_iff policy schedule turn sessions request (i := i)
  rw [hs] at hout hin hmem
  have hlt : i < sessions.length := (List.getElem?_eq_some_iff.mp hi).1
  simp only [hlt, true_and, Option.any_some] at hmem
  refine ⟨((RequestState.start request session).resolve policy turn').2, ?_⟩
  cases hw : (firstVerdicts policy schedule turn sessions request).winner with
  | some w =>
    obtain ⟨hstates, -⟩ := resolve_of_winner policy schedule turn sessions request hw
    exact ⟨_, hs, ⟨turn', rfl⟩, by rw [hstates, hs], Or.inr ⟨nofun, rfl⟩⟩
  | none =>
    by_cases hd : (firstVerdicts policy schedule turn sessions request).deferred = []
    · obtain ⟨hstates, -⟩ := resolve_of_no_deferred policy schedule turn sessions request hw hd
      rw [hd] at hmem
      exact ⟨_, hs, ⟨turn', rfl⟩, by rw [hstates, hs], Or.inr ⟨fun h => absurd (hmem.mpr h.2) (by simp), rfl⟩⟩
    · obtain ⟨hstates, -⟩ := resolve_of_deferred policy schedule turn sessions request hw hd
      by_cases hmd : i ∈ (firstVerdicts policy schedule turn sessions request).deferred
      · obtain ⟨turn'', ht⟩ := hin hmd
        exact ⟨_, hs, ⟨turn', rfl⟩, by rw [hstates, ht]; rfl, Or.inl ⟨rfl, hmem.mp hmd, turn'', rfl⟩⟩
      · refine ⟨RequestState.quiet _, hs, ⟨turn', rfl⟩, ?_, Or.inr ⟨fun h => hmd (hmem.mpr h.2), rfl⟩⟩
        rw [hstates, hout hmd]
        rfl

theorem length_states_resolve : (resolve policy schedule turn sessions request).states.length = sessions.length := by
  have hfirst : (firstPass policy schedule turn sessions request).states.length = sessions.length := by
    rw [firstPass, length_ask, List.length_map]
  cases hw : (firstVerdicts policy schedule turn sessions request).winner with
  | some w => rw [(resolve_of_winner policy schedule turn sessions request hw).1, hfirst]
  | none =>
    by_cases hd : (firstVerdicts policy schedule turn sessions request).deferred = []
    · rw [(resolve_of_no_deferred policy schedule turn sessions request hw hd).1, hfirst]
    · rw [(resolve_of_deferred policy schedule turn sessions request hw hd).1, secondPass, length_ask]
      exact (List.length_map _).trans hfirst

/-- After a request every state knows just what its repository answered during the request. -/
theorem accounted_resolve {i : Nat} {session : Session} (hi : sessions[i]? = some session) :
    ∃ t asked, (resolve policy schedule turn sessions request).states[i]? = some t ∧ t.Accounted request session asked := by
  obtain ⟨s, t, -, ⟨turn', rfl⟩, ht, hcase⟩ := states_resolve policy schedule turn sessions request hi
  obtain ⟨nearby, more, lookups, hacc, -⟩ := RequestState.accounted_resolve_start request session policy turn'
  rcases hcase with ⟨-, -, turn'', rfl⟩ | ⟨-, hq⟩
  · obtain ⟨more', lookups', hacc', -⟩ := (RequestState.accounted_quiet_iff.mpr hacc).resolve_later
      hacc.listing.stage_ne_fresh policy turn''
    exact ⟨_, _, ht, hacc'⟩
  · have hacc' := RequestState.accounted_quiet_iff.mpr hacc
    rw [← hq] at hacc'
    exact ⟨t, _, ht, RequestState.accounted_quiet_iff.mp hacc'⟩

/-- What a state accounts for is what its repository was asked. -/
theorem Run.getElem?_sessions {run : Run} {i : Nat} {t : RequestState} {request : Request} {session : Session}
    {asked : History} (ht : run.states[i]? = some t) (h : t.Accounted request session asked) :
    run.sessions[i]? = some (session.after asked) := by
  rw [sessions, List.getElem?_map, ht, Option.map_some, h.visit.session]

/-- The repository at a place keeps its name. -/
theorem name_resolve {i : Nat} {session : Session} (hi : sessions[i]? = some session) :
    ((resolve policy schedule turn sessions request).states[i]?.map (·.visit.name)).getD "" = session.repository.name := by
  obtain ⟨t, asked, ht, hacc⟩ := accounted_resolve policy schedule turn sessions request hi
  rw [ht, Option.map_some, Option.getD_some, Visit.name, hacc.visit.session]
  rfl

/-- An invariant of the states that have found nothing yet, kept by every step from such a state, holds of every state in the
end. -/
theorem forall_states {P : RequestState → Prop} (hquiet : ∀ {s t : RequestState}, s.quiet = t.quiet → P s → P t)
    (hstart : ∀ session ∈ sessions, P (.start request session))
    (hstep : ∀ (s : RequestState) (turn : Nat), s.FoundNothing → P s → P (s.resolve policy turn).2) :
    ∀ t ∈ (resolve policy schedule turn sessions request).states, P t := by
  intro t ht
  obtain ⟨i, hi⟩ := List.getElem?_of_mem ht
  have hlt : i < sessions.length := by
    have := (List.getElem?_eq_some_iff.mp hi).1
    rwa [length_states_resolve] at this
  have hget : sessions[i]? = some sessions[i] := List.getElem?_eq_getElem hlt
  obtain ⟨s, t', -, ⟨turn', rfl⟩, ht', hcase⟩ := states_resolve policy schedule turn sessions request hget
  rw [ht'] at hi
  obtain rfl := Option.some.inj hi
  have hfirst := hstep _ turn' (Or.inl rfl) (hstart _ (List.getElem_mem hlt))
  rcases hcase with ⟨-, hdef, turn'', rfl⟩ | ⟨-, hq⟩
  · exact hstep _ turn'' (RequestState.outcome_eq_of_isDeferred hdef).1 (hquiet (RequestState.quiet_quiet _).symm hfirst)
  · exact hquiet hq.symm hfirst

/-! ## What a result says about the states -/

/-- A winner is adopted by the state at its place. -/
theorem adopted_of_foldl_contend (states : List RequestState) (queue : List Nat) :
    ∀ {best : Option Winner} {w : Winner},
      (∀ b, best = some b → (states[b.place]?).bind RequestState.adopted? = some b.metadata) →
      queue.foldl (contend policy states) best = some w →
      (states[w.place]?).bind RequestState.adopted? = some w.metadata := by
  induction queue with
  | nil => intro best w hbest hw; exact hbest w hw
  | cons i queue ih =>
    intro best w hbest hw
    refine ih (fun b hb => ?_) hw
    unfold contend at hb
    cases hm : (states[i]?).bind RequestState.adopted? with
    | none =>
      rw [hm] at hb
      exact hbest b hb
    | some m =>
      rw [hm] at hb
      obtain rfl := Option.some.inj hb
      unfold better
      cases best with
      | none => exact hm
      | some b =>
        dsimp only
        split
        · exact hbest b rfl
        · exact hm

theorem adopted_of_winner {states : List RequestState} {queue : List Nat} {w : Winner}
    (h : (classify policy states queue).winner = some w) :
    (states[w.place]?).bind RequestState.adopted? = some w.metadata := by
  rw [classify_eq] at h
  exact adopted_of_foldl_contend policy states queue (by simp) h

theorem mem_bind_iff {α : Type} {states : List RequestState} {g : RequestState → Option α} {a : α} :
    (∃ s ∈ states, g s = some a) ↔ ∃ i : Nat, (states[i]?).bind g = some a := by
  constructor
  · rintro ⟨s, hs, hg⟩
    obtain ⟨i, hi⟩ := List.getElem?_of_mem hs
    exact ⟨i, by rw [hi]; exact hg⟩
  · rintro ⟨i, hi⟩
    obtain ⟨s, hs, hg⟩ := Option.bind_eq_some_iff.mp hi
    exact ⟨s, List.mem_of_getElem? hs, hg⟩

/-- Without a winner in the first pass, no state of it resolved the request. -/
theorem firstPass_bind_adopted? (h : (firstVerdicts policy schedule turn sessions request).winner = none) (i : Nat) :
    ((firstPass policy schedule turn sessions request).states[i]?).bind RequestState.adopted? = none := by
  cases hs : (firstPass policy schedule turn sessions request).states[i]? with
  | none => rfl
  | some s =>
    have hi := (List.getElem?_eq_some_iff.mp hs).1
    rw [firstPass, length_ask, List.length_map] at hi
    have hiff := classify_winner_isSome_iff policy (firstPass policy schedule turn sessions request).states
      (List.range sessions.length)
    cases ha : s.adopted? with
    | none => exact ha
    | some m =>
      have hsome := hiff.mpr ⟨i, List.mem_range.mpr hi, by rw [hs]; simp [ha]⟩
      rw [← firstVerdicts, h] at hsome
      nomatch hsome

theorem mem_firstVerdicts_failures {f : Failure} : f ∈ (firstVerdicts policy schedule turn sessions request).failures ↔
    ∃ i : Nat, ((firstPass policy schedule turn sessions request).states[i]?).bind RequestState.failure? = some f := by
  rw [firstVerdicts, classify_failures, mem_failuresAt]
  refine exists_congr fun i => and_iff_right_of_imp fun hi => ?_
  obtain ⟨s, hs, -⟩ := Option.bind_eq_some_iff.mp hi
  have := (List.getElem?_eq_some_iff.mp hs).1
  rw [firstPass, length_ask, List.length_map] at this
  exact List.mem_range.mpr this

/-- A place that is not deferred shows in the second pass what it showed in the first. -/
theorem secondPass_bind_of_not_mem {α : Type} (g : RequestState → Option α) (hg : ∀ s : RequestState, g s.quiet = g s) {i : Nat}
    (hi : i ∉ (firstVerdicts policy schedule turn sessions request).deferred) :
    ((secondPass policy schedule turn sessions request).states[i]?).bind g =
      ((firstPass policy schedule turn sessions request).states[i]?).bind g := by
  rw [(getElem?_secondPass policy schedule turn sessions request i).1 hi]
  cases (firstPass policy schedule turn sessions request).states[i]? with
  | none => rfl
  | some s => exact hg s

/-- A deferred place showed no failure in the first pass. -/
theorem firstPass_bind_failure?_of_mem {i : Nat} (hi : i ∈ (firstVerdicts policy schedule turn sessions request).deferred) :
    ((firstPass policy schedule turn sessions request).states[i]?).bind RequestState.failure? = none := by
  obtain ⟨-, hd⟩ := (mem_deferred_iff policy schedule turn sessions request).mp hi
  obtain ⟨s, hs, hd⟩ := (Option.any_eq_true _ _).mp hd
  rw [hs]
  rcases (RequestState.outcome_eq_of_isDeferred hd).1 with ho | ho <;> simp [RequestState.failure?, ho]

/-- The failures of both passes are those that the states show in the end. -/
theorem mem_failures_of_secondPass {f : Failure} :
    f ∈ (firstVerdicts policy schedule turn sessions request).failures ++
        failuresAt (secondPass policy schedule turn sessions request).states
          (firstVerdicts policy schedule turn sessions request).deferred ↔
      ∃ i : Nat, ((secondPass policy schedule turn sessions request).states[i]?).bind RequestState.failure? = some f := by
  have hsame : ∀ i, i ∉ (firstVerdicts policy schedule turn sessions request).deferred → _ := fun i hi =>
    secondPass_bind_of_not_mem policy schedule turn sessions request RequestState.failure? (fun _ => rfl) hi
  rw [List.mem_append, mem_firstVerdicts_failures, mem_failuresAt]
  constructor
  · rintro (⟨i, hi⟩ | ⟨i, -, hi⟩)
    · refine ⟨i, ?_⟩
      rw [hsame i fun hmem => ?_, hi]
      rw [firstPass_bind_failure?_of_mem policy schedule turn sessions request hmem] at hi
      nomatch hi
    · exact ⟨i, hi⟩
  · rintro ⟨i, hi⟩
    by_cases hmem : i ∈ (firstVerdicts policy schedule turn sessions request).deferred
    · exact Or.inr ⟨i, hmem, hi⟩
    · exact Or.inl ⟨i, by rw [← hsame i hmem, hi]⟩

/-- Without a winner in either pass, no state resolved the request in the end. -/
theorem secondPass_bind_adopted? (h : (firstVerdicts policy schedule turn sessions request).winner = none)
    (h' : (classify policy (secondPass policy schedule turn sessions request).states
      (firstVerdicts policy schedule turn sessions request).deferred).winner = none) (i : Nat) :
    ((secondPass policy schedule turn sessions request).states[i]?).bind RequestState.adopted? = none := by
  by_cases hmem : i ∈ (firstVerdicts policy schedule turn sessions request).deferred
  · have hiff := classify_winner_isSome_iff policy (secondPass policy schedule turn sessions request).states
      (firstVerdicts policy schedule turn sessions request).deferred
    rw [h'] at hiff
    cases ha : ((secondPass policy schedule turn sessions request).states[i]?).bind RequestState.adopted? with
    | none => rfl
    | some m => nomatch hiff.mpr ⟨i, hmem, by rw [ha]; rfl⟩
  · rw [secondPass_bind_of_not_mem policy schedule turn sessions request RequestState.adopted? (fun _ => rfl) hmem]
    exact firstPass_bind_adopted? policy schedule turn sessions request h i

/-- The result is the conclusion from a winner that its state adopted, or from all failures of states when none adopted
anything. -/
theorem resolve_concludes :
    let run := resolve policy schedule turn sessions request
    ∃ winner failures, run.result = conclusion request winner failures run.states ∧
      (∀ w, winner = some w → (run.states[w.place]?).bind RequestState.adopted? = some w.metadata) ∧
      (winner = none → (∀ s ∈ run.states, s.adopted? = none) ∧
        ∀ f, f ∈ failures ↔ ∃ s ∈ run.states, s.failure? = some f) := by
  intro run
  have hadopted : (∀ i : Nat, (run.states[i]?).bind RequestState.adopted? = none) → ∀ s ∈ run.states, s.adopted? = none := by
    intro hi s hs
    obtain ⟨i, hget⟩ := List.getElem?_of_mem hs
    have := hi i
    rwa [hget] at this
  cases hw : (firstVerdicts policy schedule turn sessions request).winner with
  | some w =>
    obtain ⟨hstates, hresult⟩ := resolve_of_winner policy schedule turn sessions request hw
    refine ⟨some w, [], by rw [hresult, hstates], fun w' hw' => ?_, nofun⟩
    rw [hstates]
    exact adopted_of_winner policy (hw.trans hw')
  | none =>
    by_cases hd : (firstVerdicts policy schedule turn sessions request).deferred = []
    · obtain ⟨hstates, hresult⟩ := resolve_of_no_deferred policy schedule turn sessions request hw hd
      refine ⟨none, _, by rw [hresult, hstates], nofun, fun _ => ⟨hadopted fun i => ?_, fun f => ?_⟩⟩
      · rw [hstates]
        exact firstPass_bind_adopted? policy schedule turn sessions request hw i
      · rw [mem_bind_iff, hstates]
        exact mem_firstVerdicts_failures policy schedule turn sessions request
    · obtain ⟨hstates, hresult⟩ := resolve_of_deferred policy schedule turn sessions request hw hd
      refine ⟨_, _, by rw [hresult, hstates], fun w hw' => ?_, fun hnone => ⟨hadopted fun i => ?_, fun f => ?_⟩⟩
      · rw [hstates]
        exact adopted_of_winner policy hw'
      · rw [hstates]
        exact secondPass_bind_adopted? policy schedule turn sessions request hw hnone i
      · rw [mem_bind_iff, hstates, classify_failures]
        exact mem_failures_of_secondPass policy schedule turn sessions request

end

end Resolver

end VersionChain
