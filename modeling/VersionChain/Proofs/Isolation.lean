import VersionChain.Proofs.Exhaustion
import VersionChain.Proofs.Reordering

/-!
# A repository that resolves nothing

The repositories of a request share the list of failures, the queue of the second pass and the decision whether there is one. A
repository that does not resolve the request takes part in all three, but it decides nothing: with it registered, anywhere among
the others, the request comes to the same resolution. An error stays an error, and has a cause more if this repository failed.
-/

namespace VersionChain

namespace Error

/-- The failures that the error names. -/
def causes : Error → List Failure
  | unresolved _ causes => causes
  | _ => []

/-- Whether the error is that repositories failed. -/
def isUnresolved : Error → Bool
  | unresolved .. => true
  | _ => false

end Error

/-- The repository does not resolve the request in its first step, and not in the second one either, for which it has to be
deferred after the first. -/
structure Session.NeverResolves (rules : Rules) (request : Request) (x : Session) : Prop where
  first : ((RequestState.start request x).next rules).adopted? = none
  second : ((RequestState.start request x).next rules).isDeferred = true →
    (((RequestState.start request x).next rules).next rules).adopted? = none

namespace RequestState

/-- The failure that a state shows in the end, if no repository resolves the request: a deferred one goes a step further. -/
def lastFailure? (rules : Rules) (s : RequestState) : Option Failure :=
  if s.isDeferred then (s.next rules).failure? else s.failure?

/-- A deferred state shows no failure. -/
theorem failure?_of_isDeferred {s : RequestState} (h : s.isDeferred = true) : s.failure? = none := by
  rcases (outcome_eq_of_isDeferred h).1 with ho | ho <;> simp [failure?, ho]

end RequestState

namespace Resolver

/-! ## The states of a pass without their places -/

/-- What the deferred states show after a step more, gone through place by place. -/
theorem filterMap_deferrals {γ : Type} (rules : Rules) (states : List RequestState) (g : RequestState → Option γ) :
    ((deferrals states).filterMap fun i => ((retried rules states)[i]?).bind g) =
      (states.filter RequestState.isDeferred).filterMap fun s => g (s.next rules) := by
  unfold deferrals retried
  rw [filterMap_filter_range_getElem?]
  refine List.filterMap_congr fun s hs => ?_
  rw [if_pos (List.mem_filter.mp hs).2]

/-- The failures of both steps, those of the first before those of the second. -/
def failures (rules : Rules) (first : List RequestState) : List Failure :=
  first.filterMap RequestState.failure? ++
    (first.filter RequestState.isDeferred).filterMap fun s => (s.next rules).failure?

theorem failures_eq (rules : Rules) (first : List RequestState) :
    failuresAt first (List.range first.length) ++ failuresAt (retried rules first) (deferrals first) =
      failures rules first := by
  unfold failuresAt failures
  rw [filterMap_range_getElem?, filterMap_deferrals]

theorem filterMap_cons_toList {α β : Type} (g : α → Option β) (a : α) (l : List α) :
    (a :: l).filterMap g = (g a).toList ++ l.filterMap g := by
  rw [List.filterMap_eq_flatMap_toList, List.flatMap_cons, ← List.filterMap_eq_flatMap_toList]

/-- One state more, wherever it stands, has at most one failure more. -/
theorem failures_insert (rules : Rules) (before after : List RequestState) (s : RequestState) :
    ∃ front back, failures rules (before ++ after) = front ++ back ∧
      failures rules (before ++ s :: after) = front ++ (s.lastFailure? rules).toList ++ back := by
  unfold failures RequestState.lastFailure?
  rw [List.filterMap_append, List.filterMap_append, List.filter_append, List.filter_append, List.filterMap_append,
    List.filterMap_append, filterMap_cons_toList]
  -- a deferred state fails in the second step, any other one in the first
  by_cases hd : s.isDeferred = true
  · rw [List.filter_cons_of_pos hd, if_pos hd, filterMap_cons_toList, RequestState.failure?_of_isDeferred hd]
    exact ⟨before.filterMap RequestState.failure? ++ after.filterMap RequestState.failure? ++
      (before.filter RequestState.isDeferred).filterMap fun s => (s.next rules).failure?, _,
      (List.append_assoc ..).symm, by simp⟩
  · rw [List.filter_cons_of_neg hd, if_neg hd]
    exact ⟨before.filterMap RequestState.failure?, _, List.append_assoc .., by simp⟩

section

variable (rules : Rules) (schedule : Schedule) (turn : Nat) (sessions : List Session) (request : Request)

theorem resolutions_eq :
    resolutions (.standard rules) schedule turn sessions request =
      if (begun rules sessions request).any (·.adopted?.isSome) then
        (begun rules sessions request).filterMap RequestState.resolution?
      else
        ((begun rules sessions request).filter RequestState.isDeferred).filterMap fun s => (s.next rules).resolution? := by
  rw [resolutions_standard]
  dsimp only
  unfold resolutionsAt
  rw [filterMap_range_getElem?, filterMap_deferrals]

/-- If nothing was resolved, the error names the failures of both steps. -/
theorem exists_error_of_resolutions_eq_nil (h : resolutions (.standard rules) schedule turn sessions request = []) :
    ∃ e, (resolve (.standard rules) schedule turn sessions request).result = .error e ∧
      e.causes = failures rules (begun rules sessions request) ∧
      (e.isUnresolved = true ↔ failures rules (begun rules sessions request) ≠ []) := by
  rcases resolve_leads rules schedule turn sessions request with ⟨r, -, hlead⟩ | ⟨-, he⟩
  · have hmem := hlead.mem
    rw [h] at hmem
    nomatch hmem
  · rw [failures_eq] at he
    by_cases hnil : failures rules (begun rules sessions request) = []
    · rw [if_pos hnil] at he
      exact ⟨_, he, hnil.symm, by simp [notFound, Error.isUnresolved, hnil]⟩
    · rw [if_neg hnil] at he
      exact ⟨_, he, rfl, by simp [Error.isUnresolved, hnil]⟩

/-- After an error every repository shows the failure it has come to. -/
theorem failure?_of_error {e : Error} (he : (resolve (.standard rules) schedule turn sessions request).result = .error e)
    {i : Nat} {x : Session} (hi : sessions[i]? = some x) :
    ((resolve (.standard rules) schedule turn sessions request).states[i]?).bind RequestState.failure? =
      ((RequestState.start request x).next rules).lastFailure? rules := by
  obtain ⟨s, t, -, ⟨turn', rfl⟩, ht, hcase⟩ := states_resolve (.standard rules) schedule turn sessions request hi
  have hquiet : ∀ {t u : RequestState}, t.quiet = u.quiet → t.failure? = u.failure? := fun h => congrArg (·.failure?) h
  rw [RequestState.resolve_standard] at hcase
  rw [ht, Option.bind_some, RequestState.lastFailure?]
  rcases hcase with ⟨-, hd, turn'', rfl⟩ | ⟨hd, hq⟩
  · rw [if_pos hd, RequestState.resolve_standard]
    exact hquiet (RequestState.next_congr rules (RequestState.quiet_quiet _))
  · rw [if_neg fun h => hd ⟨winner_of_error he, h⟩]
    exact hquiet hq

end

/-! ## A repository more -/

section

variable {rules : Rules} {request : Request} {x : Session}

theorem begun_insert (rules : Rules) (request : Request) (before after : List Session) (x : Session) :
    begun rules (before ++ x :: after) request =
      begun rules before request ++ (RequestState.start request x).next rules :: begun rules after request :=
  List.map_append

theorem begun_append (rules : Rules) (request : Request) (before after : List Session) :
    begun rules (before ++ after) request = begun rules before request ++ begun rules after request :=
  List.map_append

theorem resolution?_eq_none {s : RequestState} (h : s.adopted? = none) : s.resolution? = none := by
  rw [RequestState.resolution?, h]
  rfl

/-- A repository that does not resolve the request adds nothing to what the others come to. -/
theorem resolutions_insert (h : x.NeverResolves rules request) (before after : List Session) (schedule schedule' : Schedule)
    (turn turn' : Nat) :
    resolutions (.standard rules) schedule' turn' (before ++ x :: after) request =
      resolutions (.standard rules) schedule turn (before ++ after) request := by
  have hany : ((RequestState.start request x).next rules).adopted?.isSome = false := by rw [h.first]; rfl
  rw [resolutions_eq, resolutions_eq, begun_insert, begun_append, List.any_append, List.any_append, List.any_cons, hany,
    Bool.false_or, List.filterMap_append, List.filterMap_append, List.filterMap_cons_none (resolution?_eq_none h.first)]
  congr 1
  rw [List.filter_append, List.filter_append, List.filterMap_append, List.filterMap_append]
  congr 1
  by_cases hd : ((RequestState.start request x).next rules).isDeferred = true
  · rw [List.filter_cons_of_pos hd, filterMap_cons_toList, resolution?_eq_none (h.second hd)]
    rfl
  · rw [List.filter_cons_of_neg hd]

/-- Among the same resolutions, the same leads. -/
theorem Leads.eq {all : List Resolution} {r r' : Resolution} (h : Leads all r) (h' : Leads all r') : r = r' := by
  have hfirst := h.first
  rw [h.version_eq h' (.refl all), h'.first] at hfirst
  exact (Option.some.inj hfirst).symm

/-- A repository that never resolves the request cannot disturb the others: registered at any position, it changes no resolution,
and leaves an error an error. The error is that repositories failed if it was that before, or if this repository failed; the
causes it had before stay in their order. -/
theorem resolve_insert (h : x.NeverResolves rules request) (before after : List Session) (schedule schedule' : Schedule)
    (turn turn' : Nat) :
    let run := resolve (.standard rules) schedule turn (before ++ after) request
    let run' := resolve (.standard rules) schedule' turn' (before ++ x :: after) request
    (∀ r, run.result = .ok r → run'.result = .ok r) ∧
      ∀ e, run.result = .error e → ∃ e', run'.result = .error e' ∧
        (e'.isUnresolved = true ↔
          e.isUnresolved = true ∨ ∃ f, (run'.states[before.length]?).bind RequestState.failure? = some f) ∧
        e.causes.Sublist e'.causes := by
  intro run run'
  have hsame := resolutions_insert h before after schedule schedule' turn turn'
  rcases resolve_leads rules schedule turn (before ++ after) request with ⟨r, hr, hlead⟩ | ⟨hnil, -⟩
  · refine ⟨fun q hq => ?_, fun e he => nomatch hr.symm.trans he⟩
    obtain rfl := Except.ok.inj (hr.symm.trans hq)
    rcases resolve_leads rules schedule' turn' (before ++ x :: after) request with ⟨r', hr', hlead'⟩ | ⟨hnil', -⟩
    · rw [hsame] at hlead'
      obtain rfl := hlead.eq hlead'
      exact hr'
    · have hmem := hlead.mem
      rw [← hsame, hnil'] at hmem
      nomatch hmem
  · obtain ⟨e, he, hcauses, hfailed⟩ := exists_error_of_resolutions_eq_nil rules schedule turn (before ++ after) request hnil
    obtain ⟨e', he', hcauses', hfailed'⟩ :=
      exists_error_of_resolutions_eq_nil rules schedule' turn' (before ++ x :: after) request (hsame.trans hnil)
    refine ⟨fun r hr => (nomatch he.symm.trans hr), fun d hd => ?_⟩
    obtain rfl := Except.error.inj (he.symm.trans hd)
    have hi : (before ++ x :: after)[before.length]? = some x := by simp
    have hlast := failure?_of_error rules schedule' turn' (before ++ x :: after) request he' hi
    obtain ⟨front, back, hsplit, hinsert⟩ := failures_insert rules (begun rules before request) (begun rules after request)
      ((RequestState.start request x).next rules)
    rw [begun_append, hsplit] at hcauses hfailed
    rw [begun_insert, hinsert] at hcauses' hfailed'
    refine ⟨e', he', ?_, ?_⟩
    · rw [hfailed, hfailed', hlast]
      cases RequestState.lastFailure? rules ((RequestState.start request x).next rules) <;> simp
    · rw [hcauses, hcauses']
      exact (List.sublist_append_left front _).append (.refl back)

end

/-- A repository that lists no version nearby, not for certain, and whose remote listing is broken. -/
def faulty : Session where
  repository := .ofCatalogues "faulty" (({} : Catalogue).putListing ⟨"g", "n"⟩ (.versions []))
    (({} : Catalogue).putListing ⟨"g", "n"⟩ (.failure "broken listing"))

/-- A repository that knows nothing. -/
def ignorant : Session where
  repository := .ofCatalogues "ignorant" {} {}

/-- Next to a repository that has the version, the broken listing is never asked for; next to one that knows nothing, it is the
error. -/
theorem resolve_insert_faulty :
    faulty.NeverResolves {} ⟨"g", "n", "latest"⟩ ∧
      (∃ r, (resolve (.standard {}) .inOrder 0 ([] ++ [twofold "one"]) ⟨"g", "n", "latest"⟩).result = .ok r ∧
        (resolve (.standard {}) .inOrder 0 ([] ++ faulty :: [twofold "one"]) ⟨"g", "n", "latest"⟩).result = .ok r) ∧
      ∃ e e', (resolve (.standard {}) .inOrder 0 ([ignorant] ++ []) ⟨"g", "n", "latest"⟩).result = .error e ∧
        e.isUnresolved = false ∧
        (resolve (.standard {}) .inOrder 0 ([ignorant] ++ faulty :: []) ⟨"g", "n", "latest"⟩).result = .error e' ∧
        e'.isUnresolved = true := by
  have hnever : faulty.NeverResolves {} ⟨"g", "n", "latest"⟩ := by
    constructor
    · rw [RequestState.next, Policy.standard_eq]
      decide +kernel
    · rw [RequestState.next, RequestState.next, Policy.standard_eq]
      decide +kernel
  have hwins : (resolve (.standard {}) .inOrder 0 ([] ++ [twofold "one"]) ⟨"g", "n", "latest"⟩).result.isOk = true := by
    rw [Policy.standard_eq]
    decide +kernel
  have hnothing : (resolve (.standard {}) .inOrder 0 ([ignorant] ++ []) ⟨"g", "n", "latest"⟩).error?.any
      (!·.isUnresolved) = true := by
    rw [Policy.standard_eq]
    decide +kernel
  have hfails : (((resolve (.standard {}) .inOrder 0 ([ignorant] ++ faulty :: [])
      ⟨"g", "n", "latest"⟩).states[[ignorant].length]?).bind RequestState.failure?).isSome = true := by
    rw [Policy.standard_eq]
    decide +kernel
  obtain ⟨hok, -⟩ := resolve_insert hnever [] [twofold "one"] .inOrder .inOrder 0 0
  obtain ⟨-, herror⟩ := resolve_insert hnever [ignorant] [] .inOrder .inOrder 0 0
  obtain ⟨e, he, hun⟩ := (Option.any_eq_true _ _).mp hnothing
  obtain ⟨e', he', hiff, -⟩ := herror e (Run.result_of_error? he)
  refine ⟨hnever, ?_, e, e', Run.result_of_error? he, by simpa using hun, he',
    hiff.mpr (Or.inr (Option.isSome_iff_exists.mp hfails))⟩
  cases hr : (resolve (.standard {}) .inOrder 0 ([] ++ [twofold "one"]) ⟨"g", "n", "latest"⟩).result with
  | ok r => exact ⟨r, rfl, hok r hr⟩
  | error e =>
    rw [hr] at hwins
    nomatch hwins

end Resolver

end VersionChain
