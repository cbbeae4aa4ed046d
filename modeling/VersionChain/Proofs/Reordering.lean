import VersionChain.Proofs.Decision
import VersionChain.Proofs.Walk
import VersionChain.Repository.Catalogue

/-!
# The order of registration

Repositories answer for themselves, so what each of them comes to does not depend on the others. Under the standard policy the
order in which they are registered decides only between repositories that resolve the request to the same version, in favour of
the earliest, and in which order an error names what it names. `resolutions` is what the repositories came to in the pass that
decides, and `AgreeUpToOrder` compares the results of two requests by it.
-/

namespace VersionChain

/-! ## Places and states -/

section

variable {α β γ : Type}

/-- What the entries of a list yield, gone through place by place. -/
theorem filterMap_range_getElem? (l : List α) (g : α → Option γ) :
    ((List.range l.length).filterMap fun i => (l[i]?).bind g) = l.filterMap g := by
  induction l with
  | nil => rfl
  | cons a l ih => simp [List.range_succ_eq_map, List.filterMap_cons, List.filterMap_map, ih]

/-- What some entries of a list yield after a change, gone through place by place. -/
theorem filterMap_filter_range_getElem? (l : List α) (p : α → Bool) (h : α → β) (g : β → Option γ) :
    (((List.range l.length).filter fun i => (l[i]?).any p).filterMap fun i => ((l.map h)[i]?).bind g) =
      (l.filter p).filterMap fun a => g (h a) := by
  rw [List.filterMap_filter, List.filterMap_filter, ← filterMap_range_getElem? l]
  congr 1
  funext i
  rw [List.getElem?_map]
  cases l[i]? <;> rfl

end

/-- What the repository of a state has resolved the request to. -/
def RequestState.resolution? (s : RequestState) : Option Resolution :=
  s.adopted?.map fun m => ⟨s.visit.name, m⟩

namespace Resolver

/-- What the repositories at the given places have resolved the request to, in that order. -/
def resolutionsAt (states : List RequestState) (places : List Nat) : List Resolution :=
  places.filterMap fun i => (states[i]?).bind RequestState.resolution?

/-- What the repositories came to in the pass that decides, in the order of registration. -/
def resolutions (policy : Policy) (schedule : Schedule) (turn : Nat) (sessions : List Session) (request : Request) :
    List Resolution :=
  let verdicts := firstVerdicts policy schedule turn sessions request
  resolutionsAt (resolve policy schedule turn sessions request).states
    (if verdicts.winner.isSome then List.range sessions.length else verdicts.deferred)

/-- The resolution leads the given ones: none is to a greater version, and it is the first to its version. -/
structure Leads (all : List Resolution) (r : Resolution) : Prop where
  first : all.find? (·.component.version == r.component.version) = some r
  greatest : ∀ x ∈ all, (Version.compare ⟨x.component.version⟩ ⟨r.component.version⟩).isLE = true

/-- The results of two requests are alike up to the order of registration, given what the repositories came to in each. -/
def AgreeUpToOrder (all all' : List Resolution) : Except Error Resolution → Except Error Resolution → Prop
  | .ok r, .ok r' =>
    r.component.version = r'.component.version ∧
      all.find? (·.component.version == r.component.version) = some r ∧
      all'.find? (·.component.version == r.component.version) = some r' ∧
      (all.countP (·.component.version == r.component.version) = 1 → r = r')
  | .error (.notFound text attempted unmatched rejected), .error (.notFound text' attempted' unmatched' rejected') =>
    text = text' ∧ attempted.Perm attempted' ∧ unmatched.Perm unmatched' ∧ rejected.Perm rejected'
  | .error (.unresolved text causes), .error (.unresolved text' causes') => text = text' ∧ causes.Perm causes'
  | _, _ => False

/-! ## What leads -/

theorem Leads.mem {all : List Resolution} {r : Resolution} (h : Leads all r) : r ∈ all := List.mem_of_find?_eq_some h.first

/-- Of the same resolutions in another order, one to the same version leads. -/
theorem Leads.version_eq {all all' : List Resolution} {r r' : Resolution} (h : Leads all r) (h' : Leads all' r')
    (hperm : all.Perm all') : r.component.version = r'.component.version := by
  have hle := h'.greatest r (hperm.mem_iff.mp h.mem)
  have hge := h.greatest r' (hperm.mem_iff.mpr h'.mem)
  have heq := Std.LawfulEqCmp.eq_of_compare (Std.OrientedCmp.isLE_antisymm hle hge)
  exact congrArg Version.source heq

/-- The only resolution to the leading version leads in any order. -/
theorem Leads.eq_of_countP {all all' : List Resolution} {r r' : Resolution} (h : Leads all r) (h' : Leads all' r')
    (hperm : all.Perm all') (hone : all.countP (·.component.version == r.component.version) = 1) : r = r' := by
  rw [List.countP_eq_length_filter] at hone
  obtain ⟨x, hx⟩ := List.length_eq_one_iff.mp hone
  have honly : ∀ y ∈ all, y.component.version = r.component.version → y = x := fun y hy hv => by
    have hmem : y ∈ all.filter (·.component.version == r.component.version) :=
      List.mem_filter.mpr ⟨hy, beq_iff_eq.mpr hv⟩
    rwa [hx, List.mem_singleton] at hmem
  rw [honly r h.mem rfl, honly r' (hperm.mem_iff.mpr h'.mem) (h.version_eq h' hperm).symm]

/-- What is resolved at a place is what the state there has adopted. -/
theorem exists_adopted_of_mem_resolutionsAt {states : List RequestState} {places : List Nat} {r : Resolution}
    (h : r ∈ resolutionsAt states places) :
    ∃ i ∈ places, (states[i]?).bind RequestState.adopted? = some r.metadata := by
  obtain ⟨i, hi, hr⟩ := List.mem_filterMap.mp h
  obtain ⟨s, hs, hr⟩ := Option.bind_eq_some_iff.mp hr
  obtain ⟨m, hm, rfl⟩ := Option.map_eq_some_iff.mp hr
  exact ⟨i, hi, by rw [hs]; exact hm⟩

/-- The best of a pass leads what its places came to. -/
theorem IsBest.leads {states : List RequestState} {places : List Nat} {w : Winner} (h : IsBest states places w)
    (hp : places.Pairwise (· < ·)) :
    Leads (resolutionsAt states places) ⟨(states[w.place]?.map (·.visit.name)).getD "", w.metadata⟩ := by
  obtain ⟨s, hs, hadopted⟩ := Option.bind_eq_some_iff.mp h.adopted
  rw [hs, Option.map_some, Option.getD_some]
  have hwin : (states[w.place]?).bind RequestState.resolution? = some ⟨s.visit.name, w.metadata⟩ := by
    rw [hs, Option.bind_some, RequestState.resolution?, hadopted]
    rfl
  refine ⟨?_, fun x hx => ?_⟩
  · obtain ⟨before, after, rfl⟩ := List.append_of_mem h.place_mem
    have hsplit : resolutionsAt states (before ++ w.place :: after) =
        resolutionsAt states before ++ ⟨s.visit.name, w.metadata⟩ :: resolutionsAt states after := by
      unfold resolutionsAt
      rw [List.filterMap_append,
        List.filterMap_cons_some (f := fun i : Nat => (states[i]?).bind RequestState.resolution?) hwin]
    refine List.find?_eq_some_iff_append.mpr ⟨by simp, _, _, hsplit, fun x hx => ?_⟩
    -- an equal version that comes before would have been the best
    obtain ⟨i, hi, hm⟩ := exists_adopted_of_mem_resolutionsAt hx
    rw [Bool.not_eq_true', beq_eq_false_iff_ne]
    intro heq
    have hle := h.earliest i (List.mem_append_left _ hi) _ hm (Version.ext heq)
    have hlt := (List.pairwise_append.mp hp).2.2 i hi w.place List.mem_cons_self
    exact absurd hlt (Nat.not_lt.mpr hle)
  · obtain ⟨i, hi, hm⟩ := exists_adopted_of_mem_resolutionsAt hx
    exact h.greatest i hi _ hm

/-! ## What a request comes to -/

section

variable (rules : Rules) (schedule : Schedule) (turn : Nat) (sessions : List Session) (request : Request)

/-- The first pass has a winner if a repository resolved the request in one step. -/
theorem isSome_winner_standard :
    (firstVerdicts (.standard rules) schedule turn sessions request).winner.isSome =
      (begun rules sessions request).any (·.adopted?.isSome) := by
  rw [firstVerdicts_standard, Bool.eq_iff_iff, classify_winner_isSome_iff, List.any_eq_true]
  constructor
  · rintro ⟨i, -, hi⟩
    cases hs : (begun rules sessions request)[i]? with
    | none => simp [hs] at hi
    | some s => exact ⟨s, List.mem_of_getElem? hs, by simpa [hs] using hi⟩
  · rintro ⟨s, hs, hsome⟩
    obtain ⟨i, hi⟩ := List.getElem?_of_mem hs
    exact ⟨i, List.mem_range.mpr (List.getElem?_eq_some_iff.mp hi).1, by rw [hi]; exact hsome⟩

/-- What the repositories came to in the pass that decides: in the first step if one resolved the request in it, and otherwise the
deferred ones in the second. -/
theorem resolutions_standard :
    resolutions (.standard rules) schedule turn sessions request =
      let first := begun rules sessions request
      if first.any (·.adopted?.isSome) then resolutionsAt first (List.range first.length)
      else resolutionsAt (retried rules first) (deferrals first) := by
  have hlen : (begun rules sessions request).length = sessions.length := List.length_map _
  unfold resolutions
  dsimp only
  rw [deferred_standard, ← isSome_winner_standard rules schedule turn, hlen]
  cases hw : (firstVerdicts (.standard rules) schedule turn sessions request).winner with
  | some w =>
    rw [(resolve_of_winner (.standard rules) schedule turn sessions request hw).1, firstPass_standard]
    rfl
  | none =>
    obtain ⟨hstates, -⟩ := resolve_of_no_winner rules schedule turn sessions request hw
    have hsame := getElem?_bind_congr hstates RequestState.resolution? fun _ => rfl
    simp only [Option.isSome_none, Bool.false_eq_true, if_false, resolutionsAt, hsame]

/-- A request comes to what leads in the pass that decides. If nothing was resolved there, it comes to the failures of both steps,
and without any to nothing. -/
theorem resolve_leads :
    let first := begun rules sessions request
    let second := retried rules first
    let run := resolve (.standard rules) schedule turn sessions request
    let failures := failuresAt first (List.range first.length) ++ failuresAt second (deferrals first)
    (∃ r, run.result = .ok r ∧ Leads (resolutions (.standard rules) schedule turn sessions request) r) ∨
      resolutions (.standard rules) schedule turn sessions request = [] ∧
        run.result = if failures = [] then .error (notFound request second) else .error (.unresolved request.text failures) := by
  intro first second run failures
  have hfirst := classify_winner rules first (List.pairwise_lt_range (n := first.length))
  rw [← firstVerdicts_standard rules schedule turn] at hfirst
  have hdeferred := deferred_standard rules schedule turn sessions request
  have hlen : first.length = sessions.length := List.length_map _
  unfold resolutions
  dsimp only
  cases hw : (firstVerdicts (.standard rules) schedule turn sessions request).winner with
  | some w =>
    obtain ⟨hstates, hresult⟩ := resolve_of_winner (.standard rules) schedule turn sessions request hw
    rw [firstPass_standard] at hstates hresult
    rw [hw, hlen] at hfirst
    refine Or.inl ⟨_, hresult, ?_⟩
    rw [hstates]
    exact IsBest.leads hfirst List.pairwise_lt_range
  | none =>
    obtain ⟨hstates, hresult⟩ := resolve_of_no_winner rules schedule turn sessions request hw
    have hsame := (classify_congr hstates (.standard rules) (deferrals first)).2
    rw [classify_failures, classify_failures] at hsame
    have hsecond := classify_winner rules run.states (pairwise_deferrals first)
    simp only [Option.isSome_none, Bool.false_eq_true, if_false, hdeferred]
    cases hw' : (classify (.standard rules) run.states (deferrals first)).winner with
    | some w =>
      rw [hw'] at hresult hsecond
      exact Or.inl ⟨_, hresult, IsBest.leads hsecond (pairwise_deferrals first)⟩
    | none =>
      rw [hw'] at hresult hsecond
      refine Or.inr ⟨List.eq_nil_iff_forall_not_mem.mpr fun r hr => ?_, ?_⟩
      · obtain ⟨i, hi, hadopted⟩ := exists_adopted_of_mem_resolutionsAt hr
        nomatch (hsecond i hi).symm.trans hadopted
      · rw [hresult, conclusion, hsame, notFound_congr hstates]
        simp only [List.isEmpty_iff]
        rfl

end

/-! ## Another order -/

section

variable {l l' : List RequestState} (h : l.Perm l')

include h

theorem perm_filterMap_range {γ : Type} (g : RequestState → Option γ) :
    ((List.range l.length).filterMap fun i => (l[i]?).bind g).Perm
      ((List.range l'.length).filterMap fun i => (l'[i]?).bind g) := by
  rw [filterMap_range_getElem?, filterMap_range_getElem?]
  exact h.filterMap g

theorem perm_filterMap_deferrals {γ : Type} (rules : Rules) (g : RequestState → Option γ) :
    ((deferrals l).filterMap fun i => ((retried rules l)[i]?).bind g).Perm
      ((deferrals l').filterMap fun i => ((retried rules l')[i]?).bind g) := by
  unfold deferrals retried
  rw [filterMap_filter_range_getElem?, filterMap_filter_range_getElem?]
  exact (h.filter _).filterMap _

end

theorem perm_distinct {xs ys : List String} (h : xs.Perm ys) : (Text.distinct xs).Perm (Text.distinct ys) := by
  rw [List.perm_ext_iff_of_nodup (Text.nodup_distinct xs) (Text.nodup_distinct ys)]
  intro x
  rw [Text.mem_distinct, Text.mem_distinct, h.mem_iff]

/-- Of the same resolutions in another order, those that lead agree. -/
theorem Leads.agreeUpToOrder {all all' : List Resolution} {r r' : Resolution} (h : Leads all r) (h' : Leads all' r')
    (hperm : all.Perm all') : AgreeUpToOrder all all' (.ok r) (.ok r') := by
  have hversion := h.version_eq h' hperm
  exact ⟨hversion, h.first, by rw [hversion]; exact h'.first, h.eq_of_countP h' hperm⟩

/-- Errors about the same failures and the same states in another order agree. -/
theorem agreeUpToOrder_error (all all' : List Resolution) (request : Request) {failures failures' : List Failure}
    (hf : failures.Perm failures') {states states' : List RequestState} (hs : states.Perm states') :
    AgreeUpToOrder all all'
      (if failures = [] then .error (notFound request states) else .error (.unresolved request.text failures))
      (if failures' = [] then .error (notFound request states') else .error (.unresolved request.text failures')) := by
  by_cases hnil : failures = []
  · subst hnil
    rw [if_pos rfl, if_pos hf.nil_eq.symm]
    exact ⟨rfl, perm_distinct (hs.flatMap_right _), perm_distinct (hs.flatMap_right _), perm_distinct (hs.flatMap_right _)⟩
  · have hnil' : failures' ≠ [] := fun h => hnil (by rw [h] at hf; exact hf.eq_nil)
    rw [if_neg hnil, if_neg hnil']
    exact ⟨rfl, hf⟩

section

variable {sessions sessions' : List Session} (h : sessions.Perm sessions')

include h

theorem begun_perm (rules : Rules) (request : Request) : (begun rules sessions request).Perm (begun rules sessions' request) :=
  h.map _

theorem resolutions_perm (rules : Rules) (schedule schedule' : Schedule) (turn turn' : Nat) (request : Request) :
    (resolutions (.standard rules) schedule turn sessions request).Perm
      (resolutions (.standard rules) schedule' turn' sessions' request) := by
  have hfirst := begun_perm h rules request
  rw [resolutions_standard, resolutions_standard]
  dsimp only
  rw [hfirst.any_eq]
  split
  · exact perm_filterMap_range hfirst RequestState.resolution?
  · exact perm_filterMap_deferrals hfirst rules RequestState.resolution?

/-- The same repositories in another order resolve a request alike, up to the order. -/
theorem resolve_perm (rules : Rules) (schedule schedule' : Schedule) (turn turn' : Nat) (request : Request) :
    AgreeUpToOrder (resolutions (.standard rules) schedule turn sessions request)
      (resolutions (.standard rules) schedule' turn' sessions' request)
      (resolve (.standard rules) schedule turn sessions request).result
      (resolve (.standard rules) schedule' turn' sessions' request).result := by
  have hperm := resolutions_perm h rules schedule schedule' turn turn' request
  have hfirst := begun_perm h rules request
  rcases resolve_leads rules schedule turn sessions request with ⟨r, hr, hleads⟩ | ⟨hnil, hr⟩ <;>
    rcases resolve_leads rules schedule' turn' sessions' request with ⟨r', hr', hleads'⟩ | ⟨hnil', hr'⟩
  · rw [hr, hr']
    exact hleads.agreeUpToOrder hleads' hperm
  · have hmem := hperm.mem_iff.mp hleads.mem
    rw [hnil'] at hmem
    nomatch hmem
  · have hmem := hperm.mem_iff.mpr hleads'.mem
    rw [hnil] at hmem
    nomatch hmem
  · rw [hr, hr']
    exact agreeUpToOrder_error _ _ request
      ((perm_filterMap_range hfirst RequestState.failure?).append
        (perm_filterMap_deferrals hfirst rules RequestState.failure?))
      (hfirst.map _)

end

/-- A repository of the given name that has the versions `1.0` and `2.0`. -/
def twofold (name : String) : Session where
  repository := .ofCatalogues name (({} : Catalogue).putModules ⟨"g", "n"⟩ ["1.0", "2.0"]) {}

/-- Of two repositories with the same newest version, the one that is registered first is named. -/
theorem resolve_perm_twofold :
    [twofold "one", twofold "two"].Perm [twofold "two", twofold "one"] ∧
      ((resolve (.standard {}) .inOrder 0 [twofold "one", twofold "two"] ⟨"g", "n", "latest"⟩).result.toOption.map
        fun r => (r.repository, r.component.version)) = some ("one", "2.0") ∧
      ((resolve (.standard {}) .inOrder 0 [twofold "two", twofold "one"] ⟨"g", "n", "latest"⟩).result.toOption.map
        fun r => (r.repository, r.component.version)) = some ("two", "2.0") ∧
      AgreeUpToOrder
        (resolutions (.standard {}) .inOrder 0 [twofold "one", twofold "two"] ⟨"g", "n", "latest"⟩)
        (resolutions (.standard {}) .inOrder 0 [twofold "two", twofold "one"] ⟨"g", "n", "latest"⟩)
        (resolve (.standard {}) .inOrder 0 [twofold "one", twofold "two"] ⟨"g", "n", "latest"⟩).result
        (resolve (.standard {}) .inOrder 0 [twofold "two", twofold "one"] ⟨"g", "n", "latest"⟩).result := by
  have hperm : [twofold "one", twofold "two"].Perm [twofold "two", twofold "one"] := .swap _ _ []
  refine ⟨hperm, ?_, ?_, resolve_perm hperm {} .inOrder .inOrder 0 0 ⟨"g", "n", "latest"⟩⟩
  · rw [Policy.standard_eq]
    decide +kernel
  · rw [Policy.standard_eq]
    decide +kernel

end Resolver

end VersionChain
