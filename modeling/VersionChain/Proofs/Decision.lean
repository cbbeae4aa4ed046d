import VersionChain.Policy.Standard
import VersionChain.Proofs.Runs

/-!
# How a request is decided

Under the standard policy the decision is a function of what one step, and for the deferred repositories a second step, comes to
in each repository; neither the schedule nor the policy's turns matter. `IsBest` says which component wins a pass, and
`resolve_decides` says how the two passes amount to a result.
-/

namespace VersionChain

/-- The version of the component described. -/
def Metadata.version (m : Metadata) : Version := ⟨m.id.version⟩

/-- The state one step further under the standard policy. -/
def RequestState.next (rules : Rules) (s : RequestState) : RequestState := (s.resolve (.standard rules) 0).2

/-- The turns of the standard policy are all alike. -/
theorem RequestState.resolve_standard (rules : Rules) (turn : Nat) (s : RequestState) :
    (s.resolve (.standard rules) turn).2 = s.next rules := by
  have hs : ∀ t, (Policy.standard rules).select t = Policy.standardSelect rules := fun _ => rfl
  unfold next
  rw [resolve_eq, resolve_eq]
  unfold select
  rw [hs turn, hs 0]
  split <;> rfl

/-- A step goes on alike, whatever was told before. -/
theorem RequestState.next_congr (rules : Rules) {s t : RequestState} (h : s.quiet = t.quiet) :
    (s.next rules).quiet = (t.next rules).quiet :=
  (resolve_congr (.standard rules) 0 h).2

namespace Resolver

/-! ## The passes of the standard policy -/

/-- The states after one step in every repository. -/
def begun (rules : Rules) (sessions : List Session) (request : Request) : List RequestState :=
  sessions.map fun session => (RequestState.start request session).next rules

/-- The places of the states that are deferred. -/
def deferrals (states : List RequestState) : List Nat :=
  (List.range states.length).filter fun i => (states[i]?).any RequestState.isDeferred

/-- The states after one step more in the deferred ones. -/
def retried (rules : Rules) (states : List RequestState) : List RequestState :=
  states.map fun s => if s.isDeferred then s.next rules else s

section

variable (rules : Rules) (schedule : Schedule) (turn : Nat) (sessions : List Session) (request : Request)

theorem firstPass_standard :
    (firstPass (.standard rules) schedule turn sessions request).states = begun rules sessions request := by
  apply List.ext_getElem?
  intro i
  obtain ⟨turn', ht⟩ := getElem?_firstPass (.standard rules) schedule turn sessions request i
  rw [ht, begun, List.getElem?_map]
  simp only [RequestState.resolve_standard]

theorem firstVerdicts_standard :
    firstVerdicts (.standard rules) schedule turn sessions request =
      classify (.standard rules) (begun rules sessions request) (List.range (begun rules sessions request).length) := by
  rw [firstVerdicts, firstPass_standard]
  simp [begun]

theorem deferred_standard :
    (firstVerdicts (.standard rules) schedule turn sessions request).deferred = deferrals (begun rules sessions request) := by
  rw [firstVerdicts_standard, classify_eq]
  rfl

theorem mem_deferrals {states : List RequestState} {i : Nat} :
    i ∈ deferrals states ↔ (states[i]?).any RequestState.isDeferred = true := by
  unfold deferrals
  rw [List.mem_filter, List.mem_range]
  constructor
  · exact fun h => h.2
  · intro h
    obtain ⟨s, hs, -⟩ := (Option.any_eq_true _ _).mp h
    exact ⟨(List.getElem?_eq_some_iff.mp hs).1, h⟩

/-- The second pass takes the deferred states one step further, up to what was told. -/
theorem secondPass_standard :
    (secondPass (.standard rules) schedule turn sessions request).states.map RequestState.quiet =
      (retried rules (begun rules sessions request)).map RequestState.quiet := by
  apply List.ext_getElem?
  intro i
  obtain ⟨hout, hin⟩ := getElem?_secondPass (.standard rules) schedule turn sessions request i
  rw [deferred_standard, firstPass_standard, mem_deferrals] at hout hin
  rw [retried, List.getElem?_map, List.getElem?_map, List.getElem?_map]
  cases hs : (begun rules sessions request)[i]? with
  | none =>
    rw [hs] at hout
    rw [hout (by simp)]
    rfl
  | some s =>
    rw [hs] at hout hin
    by_cases hd : s.isDeferred = true
    · obtain ⟨turn', ht⟩ := hin (by simpa using hd)
      rw [ht]
      simp only [Option.map_some, RequestState.resolve_standard, hd, if_true]
      rw [RequestState.next_congr rules (RequestState.quiet_quiet s)]
    · rw [hout (by simpa using hd)]
      simp [hd]

end

/-! ## The winner of a pass -/

/-- The winner is the greatest version that the states at the given places have resolved, from the earliest of the places that
have resolved it. -/
structure IsBest (states : List RequestState) (places : List Nat) (w : Winner) : Prop where
  place_mem : w.place ∈ places
  adopted : (states[w.place]?).bind RequestState.adopted? = some w.metadata
  greatest : ∀ i ∈ places, ∀ m, (states[i]?).bind RequestState.adopted? = some m →
    (Version.compare m.version w.metadata.version).isLE = true
  earliest : ∀ i ∈ places, ∀ m, (states[i]?).bind RequestState.adopted? = some m →
    m.version = w.metadata.version → w.place ≤ i

/-- The best stays the best when a further place has nothing newer. -/
theorem IsBest.keep {states : List RequestState} {places : List Nat} {w : Winner} {i : Nat} (h : IsBest states places w)
    (hi : ∀ j ∈ places, j < i)
    (hle : ∀ m, (states[i]?).bind RequestState.adopted? = some m → (Version.compare m.version w.metadata.version).isLE = true) :
    IsBest states (places ++ [i]) w := by
  refine ⟨List.mem_append_left _ h.place_mem, h.adopted, fun j hj m hm => ?_, fun j hj m hm heq => ?_⟩
  · rcases List.mem_append.mp hj with hj | hj
    · exact h.greatest j hj m hm
    · rw [List.mem_singleton] at hj
      subst hj
      exact hle m hm
  · rcases List.mem_append.mp hj with hj | hj
    · exact h.earliest j hj m hm heq
    · rw [List.mem_singleton] at hj
      subst hj
      exact Nat.le_of_lt (hi _ h.place_mem)

/-- A component that is strictly newer than the best is the best of one place more. -/
theorem IsBest.supersede {states : List RequestState} {places : List Nat} {w : Winner} {i : Nat} {m : Metadata}
    (h : IsBest states places w) (hm : (states[i]?).bind RequestState.adopted? = some m)
    (hgt : Version.compare m.version w.metadata.version = .gt) : IsBest states (places ++ [i]) ⟨i, m⟩ := by
  have hlt : ∀ j ∈ places, ∀ m', (states[j]?).bind RequestState.adopted? = some m' →
      Version.compare m'.version m.version = .lt := by
    intro j hj m' hm'
    exact Std.TransCmp.lt_of_isLE_of_lt (h.greatest j hj m' hm') (Std.OrientedCmp.lt_of_gt hgt)
  refine ⟨by simp, hm, fun j hj m' hm' => ?_, fun j hj m' hm' heq => ?_⟩
  · rcases List.mem_append.mp hj with hj | hj
    · rw [hlt j hj m' hm']
      rfl
    · rw [List.mem_singleton] at hj
      subst hj
      rw [hm] at hm'
      obtain rfl := Option.some.inj hm'
      exact Std.ReflCmp.isLE_rfl
  · rcases List.mem_append.mp hj with hj | hj
    · have hne := hlt j hj m' hm'
      rw [heq] at hne
      nomatch hne.symm.trans Std.ReflCmp.compare_self
    · rw [List.mem_singleton] at hj
      exact Nat.le_of_eq hj.symm

theorem better_of_gt {rules : Rules} {w : Winner} {i : Nat} {m : Metadata}
    (hgt : Version.compare m.version w.metadata.version = .gt) : better (.standard rules) (some w) ⟨i, m⟩ = ⟨i, m⟩ := by
  have hgt' : Version.compare ⟨m.id.version⟩ ⟨w.metadata.id.version⟩ = .gt := hgt
  have hn : (Policy.standard rules).newest w.metadata m = .second := by simp [Policy.standard, Policy.standardNewest, hgt']
  simp [better, hn]

theorem better_of_not_gt {rules : Rules} {w : Winner} {i : Nat} {m : Metadata}
    (hgt : ¬Version.compare m.version w.metadata.version = .gt) : better (.standard rules) (some w) ⟨i, m⟩ = w := by
  have hgt' : ¬Version.compare ⟨m.id.version⟩ ⟨w.metadata.id.version⟩ = .gt := hgt
  have hn : (Policy.standard rules).newest w.metadata m = .first := by simp [Policy.standard, Policy.standardNewest, hgt']
  simp [better, hn]

/-- The best so far and a further component make the best of one place more. -/
theorem IsBest.better {rules : Rules} {states : List RequestState} {places : List Nat} {w : Winner} {i : Nat} {m : Metadata}
    (h : IsBest states places w) (hi : ∀ j ∈ places, j < i) (hm : (states[i]?).bind RequestState.adopted? = some m) :
    IsBest states (places ++ [i]) (better (.standard rules) (some w) ⟨i, m⟩) := by
  by_cases hgt : Version.compare m.version w.metadata.version = .gt
  · rw [better_of_gt hgt]
    exact h.supersede hm hgt
  · rw [better_of_not_gt hgt]
    refine h.keep hi fun m' hm' => ?_
    rw [hm] at hm'
    obtain rfl := Option.some.inj hm'
    simpa [Ordering.isLE_iff_ne_gt] using hgt

/-- What the reduction along a queue has come to: nothing where nothing was resolved, and the best otherwise. -/
def Reduced (states : List RequestState) (places : List Nat) : Option Winner → Prop
  | none => ∀ i ∈ places, (states[i]?).bind RequestState.adopted? = none
  | some w => IsBest states places w

/-- The only place where something was resolved has the best. -/
theorem isBest_of_none {states : List RequestState} {places : List Nat} {i : Nat} {m : Metadata}
    (h : ∀ j ∈ places, (states[j]?).bind RequestState.adopted? = none) (hm : (states[i]?).bind RequestState.adopted? = some m) :
    IsBest states (places ++ [i]) ⟨i, m⟩ := by
  have honly : ∀ j ∈ places ++ [i], ∀ m', (states[j]?).bind RequestState.adopted? = some m' → j = i ∧ m' = m := by
    intro j hj m' hm'
    rcases List.mem_append.mp hj with hj | hj
    · rw [h j hj] at hm'
      nomatch hm'
    · rw [List.mem_singleton.mp hj, hm] at hm'
      exact ⟨List.mem_singleton.mp hj, (Option.some.inj hm').symm⟩
  refine ⟨by simp, hm, fun j hj m' hm' => ?_, fun j hj m' hm' _ => ?_⟩
  · rw [(honly j hj m' hm').2]
    exact Std.ReflCmp.isLE_rfl
  · exact Nat.le_of_eq (honly j hj m' hm').1.symm

theorem reduced_contend {rules : Rules} {states : List RequestState} {places : List Nat} {best : Option Winner} {i : Nat}
    (h : Reduced states places best) (hi : ∀ j ∈ places, j < i) :
    Reduced states (places ++ [i]) (contend (.standard rules) states best i) := by
  unfold contend
  cases hm : (states[i]?).bind RequestState.adopted? with
  | none =>
    cases best with
    | none =>
      intro j hj
      rcases List.mem_append.mp hj with hj | hj
      · exact h j hj
      · rw [List.mem_singleton.mp hj, hm]
    | some w =>
      refine IsBest.keep h hi fun m hm' => ?_
      nomatch hm.symm.trans hm'
  | some m =>
    cases best with
    | none => exact isBest_of_none h hm
    | some w => exact h.better hi hm

theorem reduced_foldl_contend {rules : Rules} {states : List RequestState} (queue : List Nat) :
    ∀ {places : List Nat} {best : Option Winner}, Reduced states places best → (places ++ queue).Pairwise (· < ·) →
      Reduced states (places ++ queue) (queue.foldl (contend (.standard rules) states) best) := by
  induction queue with
  | nil =>
    intro places best h _
    rw [List.append_nil]
    exact h
  | cons i queue ih =>
    intro places best h hp
    have hi : ∀ j ∈ places, j < i := fun j hj => (List.pairwise_append.mp hp).2.2 j hj i (by simp)
    have hsplit : places ++ i :: queue = (places ++ [i]) ++ queue := by simp
    rw [List.foldl_cons, hsplit]
    exact ih (reduced_contend h hi) (hsplit ▸ hp)

/-- The winner of a pass over an ascending queue is the best of it, and there is one as soon as a state resolved the request. -/
theorem classify_winner (rules : Rules) (states : List RequestState) {queue : List Nat} (h : queue.Pairwise (· < ·)) :
    Reduced states queue (classify (.standard rules) states queue).winner := by
  rw [classify_eq]
  have h0 : Reduced states [] none := by
    intro i hi
    nomatch hi
  exact reduced_foldl_contend queue h0 h

/-! ## The decision -/

theorem pairwise_deferrals (states : List RequestState) : (deferrals states).Pairwise (· < ·) :=
  List.pairwise_lt_range.filter _

/-- A reduced pass in which a state resolved the request has a winner. -/
theorem Reduced.eq_some {states : List RequestState} {places : List Nat} {best : Option Winner}
    (h : Reduced states places best) (hm : ∃ i ∈ places, ((states[i]?).bind RequestState.adopted?).isSome = true) :
    ∃ w, best = some w ∧ IsBest states places w := by
  obtain ⟨i, hi, hs⟩ := hm
  cases best with
  | none => simp [h i hi] at hs
  | some w => exact ⟨w, rfl, h⟩

/-- A reduced pass in which no state resolved the request has no winner. -/
theorem Reduced.eq_none {states : List RequestState} {places : List Nat} {best : Option Winner}
    (h : Reduced states places best) (hm : ∀ i ∈ places, (states[i]?).bind RequestState.adopted? = none) : best = none := by
  cases best with
  | none => rfl
  | some w =>
    have := h.adopted
    rw [hm w.place h.place_mem] at this
    nomatch this

/-- A request without a winner in the first step is decided by the states after the second. -/
theorem resolve_of_no_winner (rules : Rules) (schedule : Schedule) (turn : Nat) (sessions : List Session) (request : Request)
    (h : (firstVerdicts (.standard rules) schedule turn sessions request).winner = none) :
    let first := begun rules sessions request
    let run := resolve (.standard rules) schedule turn sessions request
    run.states.map RequestState.quiet = (retried rules first).map RequestState.quiet ∧
      run.result = conclusion request (classify (.standard rules) run.states (deferrals first)).winner
        (failuresAt first (List.range first.length) ++ failuresAt run.states (deferrals first)) run.states := by
  intro first run
  have hdef := deferred_standard rules schedule turn sessions request
  have hfail : (firstVerdicts (.standard rules) schedule turn sessions request).failures =
      failuresAt first (List.range first.length) := by
    rw [firstVerdicts_standard, classify_failures]
  by_cases hd : deferrals first = []
  · obtain ⟨hstates, hresult⟩ := resolve_of_no_deferred (.standard rules) schedule turn sessions request h (hdef.trans hd)
    have hrun : run.states = first := hstates.trans (firstPass_standard rules schedule turn sessions request)
    have hstay : retried rules first = first := by
      unfold retried
      refine (List.map_congr_left fun s hs => if_neg fun hds => ?_).trans (List.map_id first)
      obtain ⟨i, hi⟩ := List.getElem?_of_mem hs
      have hmem : i ∈ deferrals first := mem_deferrals.mpr (by rw [hi]; exact hds)
      rw [hd] at hmem
      nomatch hmem
    rw [hrun, hstay, hd]
    refine ⟨rfl, ?_⟩
    rw [hresult, hfail, firstPass_standard]
    simp [classify, failuresAt, first]
  · obtain ⟨hstates, hresult⟩ := resolve_of_deferred (.standard rules) schedule turn sessions request h (by rwa [hdef])
    have hrun : run.states = (secondPass (.standard rules) schedule turn sessions request).states := hstates
    rw [hrun]
    refine ⟨secondPass_standard rules schedule turn sessions request, ?_⟩
    rw [hresult, hdef, hfail, classify_failures]

/-- A request is decided by what one step, and where needed a second one, comes to in each repository.

If a repository resolved the request in the first step, nobody is asked a second time, and the greatest version wins, from the
earliest repository that has it. Otherwise just the deferred repositories go one step further, and the greatest version among
them wins likewise. Otherwise the failures of the first step and then those of the second, each in the order of registration,
are the error, and without any nothing was found. -/
theorem resolve_decides (rules : Rules) (schedule : Schedule) (turn : Nat) (sessions : List Session) (request : Request) :
    let first := begun rules sessions request
    let second := retried rules first
    let run := resolve (.standard rules) schedule turn sessions request
    let failures := failuresAt first (List.range first.length) ++ failuresAt second (deferrals first)
    ((∃ s ∈ first, s.adopted?.isSome = true) →
      run.states = first ∧
      ∃ w session, sessions[w.place]? = some session ∧ IsBest first (List.range first.length) w ∧
        run.result = .ok ⟨session.repository.name, w.metadata⟩) ∧
    ((∀ s ∈ first, s.adopted? = none) →
      run.states.map RequestState.quiet = second.map RequestState.quiet ∧
      ((∃ i ∈ deferrals first, ((second[i]?).bind RequestState.adopted?).isSome = true) →
        ∃ w session, sessions[w.place]? = some session ∧ IsBest second (deferrals first) w ∧
          run.result = .ok ⟨session.repository.name, w.metadata⟩) ∧
      ((∀ i ∈ deferrals first, (second[i]?).bind RequestState.adopted? = none) →
        run.result = if failures = [] then .error (notFound request second) else .error (.unresolved request.text failures))) := by
  intro first second run failures
  have hlen : first.length = sessions.length := List.length_map _
  have hfirst := classify_winner rules first (List.pairwise_lt_range (n := first.length))
  have hwin : (firstVerdicts (.standard rules) schedule turn sessions request).winner =
      (classify (.standard rules) first (List.range first.length)).winner := by
    rw [firstVerdicts_standard]
  have hsession : ∀ i, i < first.length → ∃ session, sessions[i]? = some session ∧
      (run.states[i]?.map (·.visit.name)).getD "" = session.repository.name := by
    intro i hi
    rw [hlen] at hi
    exact ⟨sessions[i], List.getElem?_eq_getElem hi,
      name_resolve (.standard rules) schedule turn sessions request (List.getElem?_eq_getElem hi)⟩
  constructor
  · -- a repository resolved the request in the first step
    intro ⟨s, hs, hsome⟩
    obtain ⟨i, hi⟩ := List.getElem?_of_mem hs
    have hilt := (List.getElem?_eq_some_iff.mp hi).1
    obtain ⟨w, hw, hbest⟩ := hfirst.eq_some ⟨i, List.mem_range.mpr hilt, by rw [hi]; exact hsome⟩
    obtain ⟨hstates, hresult⟩ := resolve_of_winner (.standard rules) schedule turn sessions request (hwin.trans hw)
    rw [firstPass_standard] at hstates hresult
    obtain ⟨session, hget, hname⟩ := hsession w.place (List.mem_range.mp hbest.place_mem)
    refine ⟨hstates, w, session, hget, hbest, ?_⟩
    have hrun : run.states = begun rules sessions request := hstates
    rw [hrun] at hname
    rw [hresult, conclusion, hname]
  · intro hnone
    have hw : (firstVerdicts (.standard rules) schedule turn sessions request).winner = none := by
      rw [hwin]
      refine hfirst.eq_none fun i _ => ?_
      cases hi : first[i]? with
      | none => rfl
      | some s => exact hnone s (List.mem_of_getElem? hi)
    obtain ⟨hstates, hresult⟩ := resolve_of_no_winner rules schedule turn sessions request hw
    have hsame := classify_congr hstates (.standard rules) (deferrals first)
    have hsecond := classify_winner rules second (pairwise_deferrals first)
    have hmore : failuresAt run.states (deferrals first) = failuresAt second (deferrals first) := by
      rw [← classify_failures (.standard rules), ← classify_failures (.standard rules)]
      exact hsame.2
    rw [hsame.1, hmore] at hresult
    refine ⟨hstates, fun hm => ?_, fun hm => ?_⟩
    · obtain ⟨w, hwin', hbest⟩ := hsecond.eq_some hm
      have hplace := (List.mem_filter.mp hbest.place_mem).1
      obtain ⟨session, hget, hname⟩ := hsession w.place (List.mem_range.mp hplace)
      refine ⟨w, session, hget, hbest, ?_⟩
      rw [hwin'] at hresult
      rw [hresult, ← hname]
      rfl
    · rw [hsecond.eq_none hm] at hresult
      have hnot : notFound request run.states = notFound request second := notFound_congr hstates request
      rw [hresult, conclusion, hnot]
      simp only [List.isEmpty_iff]
      rfl

end Resolver

end VersionChain
