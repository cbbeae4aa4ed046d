import VersionChain.Policy.Standard
import VersionChain.Proofs.Dealing
import VersionChain.Proofs.Runs
import VersionChain.Proofs.Walk
import VersionChain.Repository.Catalogue

/-!
# Repositories asked at the same time

The repositories of a pass may be asked at the same time: each goes through its own questions in turn, but between two of them any
other repository may be asked any number of its own. What a repository answers depends on what it was asked itself, so under a
policy that decides by what it is asked, every such interleaving leaves behind what asking one repository after the other does.
-/

namespace VersionChain

/-- The policy selects by what it is offered, not by how often it was asked before. -/
def Policy.IgnoresTurns (policy : Policy) : Prop := ∀ turn turn', policy.select turn = policy.select turn'

theorem Policy.ignoresTurns_standard (rules : Rules) : (Policy.standard rules).IgnoresTurns := fun _ _ => rfl

/-- Under a policy that ignores turns, the turn of a step does not matter. -/
theorem RequestState.resolve_of_ignoresTurns {policy : Policy} (h : policy.IgnoresTurns) (turn turn' : Nat) (s : RequestState) :
    (s.resolve policy turn).2 = (s.resolve policy turn').2 := by
  rw [resolve_eq, resolve_eq]
  unfold select
  rw [h turn turn']
  split <;> rfl

namespace Resolver

/-! ## Passes -/

/-- The dealings of a pass: those of a step at each queued place, and none elsewhere. -/
def dealings (policy : Policy) (turns : Nat → Nat) (queue : List Nat) (states : List RequestState) :
    List (Dealing RequestState) :=
  states.mapIdx fun i s => if i ∈ queue then s.resolving policy (turns i) else .done s

/-- The dealings after the next question at a place is asked. -/
def advanceAt {α : Type} (ds : List (Dealing α)) (i : Nat) : List (Dealing α) := ds.modify i Dealing.advance

/-- A pass over the queued places that asks one question after the other, each at any place, until all dealings are over. The
policy may make the selections in any turns. -/
def PassesTogether (policy : Policy) (queue : List Nat) (states states' : List RequestState) : Prop :=
  ∃ (turns : Nat → Nat) (places : List Nat),
    places.foldl advanceAt (dealings policy turns queue states) = states'.map .done

theorem map_finish_advanceAt {α : Type} (ds : List (Dealing α)) (i : Nat) :
    (advanceAt ds i).map Dealing.finish = ds.map Dealing.finish := by
  apply List.ext_getElem?
  intro j
  rw [advanceAt, List.getElem?_map, List.getElem?_map, List.getElem?_modify]
  cases ds[j]? with
  | none => rfl
  | some d =>
    by_cases hij : i = j
    · simp [hij]
    · simp [hij]

/-- Whatever is asked beforehand, the dealings come to the same in the end. -/
theorem map_finish_foldl_advanceAt {α : Type} (places : List Nat) :
    ∀ ds : List (Dealing α), (places.foldl advanceAt ds).map Dealing.finish = ds.map Dealing.finish := by
  induction places with
  | nil => intro ds; rfl
  | cons i places ih => intro ds; rw [List.foldl_cons, ih, map_finish_advanceAt]

theorem foldl_advanceAt_succ {α : Type} (d : Dealing α) (places : List Nat) :
    ∀ ds : List (Dealing α), (places.map (· + 1)).foldl advanceAt (d :: ds) = d :: places.foldl advanceAt ds := by
  induction places with
  | nil => intro ds; rfl
  | cons i places ih => intro ds; exact ih _

theorem foldl_advanceAt_zero {α : Type} (ds : List (Dealing α)) (n : Nat) :
    ∀ d : Dealing α, (List.replicate n 0).foldl advanceAt (d :: ds) = Dealing.advance^[n] d :: ds := by
  induction n with
  | zero => intro d; rfl
  | succ n ih => intro d; exact ih _

/-- Dealings at several places can be asked through. -/
theorem exists_foldl_advanceAt {α : Type} (ds : List (Dealing α)) :
    ∃ places : List Nat, places.foldl advanceAt ds = (ds.map Dealing.finish).map .done := by
  induction ds with
  | nil => exact ⟨[], rfl⟩
  | cons d ds ih =>
    obtain ⟨places, hplaces⟩ := ih
    obtain ⟨n, hn⟩ := d.exists_advance_eq_done
    refine ⟨places.map (· + 1) ++ List.replicate n 0, ?_⟩
    rw [List.foldl_append, foldl_advanceAt_succ, hplaces, foldl_advanceAt_zero, hn]
    rfl

variable {policy : Policy}

theorem getElem?_map_finish_dealings (turns : Nat → Nat) (queue : List Nat) (states : List RequestState) (i : Nat) :
    ((dealings policy turns queue states).map Dealing.finish)[i]? =
      (states[i]?).map fun s => if i ∈ queue then (s.resolve policy (turns i)).2 else s := by
  rw [dealings, List.getElem?_map, List.getElem?_mapIdx, Option.map_map]
  congr 1
  funext s
  simp only [Function.comp]
  split
  · exact RequestState.finish_resolving policy (turns i) s
  · rfl

/-- The dealings of a pass, asked through, come to what asking one place after the other does. -/
theorem map_finish_dealings (hp : policy.IgnoresTurns) (schedule : Schedule) {queue : List Nat} (hq : queue.Nodup)
    (p : Progress) (turns : Nat → Nat) :
    (dealings policy turns queue p.states).map Dealing.finish = (ask policy schedule queue p).states := by
  apply List.ext_getElem?
  intro i
  obtain ⟨hout, hin⟩ := getElem?_ask policy schedule hq p i
  rw [getElem?_map_finish_dealings]
  by_cases hi : i ∈ queue
  · obtain ⟨turn, ht⟩ := hin hi
    rw [ht]
    simp only [hi, if_true, RequestState.resolve_of_ignoresTurns hp (turns i) turn]
  · rw [hout hi]
    simp [hi]

/-- A pass that asks its places at the same time leaves the states that asking one place after the other leaves. -/
theorem passesTogether_iff (hp : policy.IgnoresTurns) (schedule : Schedule) {queue : List Nat} (hq : queue.Nodup)
    (p : Progress) (states' : List RequestState) :
    PassesTogether policy queue p.states states' ↔ states' = (ask policy schedule queue p).states := by
  constructor
  · rintro ⟨turns, places, hover⟩
    have hfinish := map_finish_foldl_advanceAt places (dealings policy turns queue p.states)
    rw [hover, List.map_map, map_finish_dealings hp schedule hq p turns] at hfinish
    rw [← hfinish]
    exact (List.map_id states').symm
  · rintro rfl
    obtain ⟨places, hover⟩ := exists_foldl_advanceAt (dealings policy (fun _ => 0) queue p.states)
    exact ⟨fun _ => 0, places, by rw [hover, map_finish_dealings hp schedule hq p]⟩

/-! ## Requests -/

/-- A request whose passes ask their repositories at the same time, with its result and the states it leaves behind. -/
inductive ResolvesTogether (policy : Policy) (sessions : List Session) (request : Request) :
    Except Error Resolution → List RequestState → Prop where
  /-- The first pass had a winner, or deferred no repository. -/
  | decided {first : List RequestState} {verdicts : Verdicts}
      (pass : PassesTogether policy (List.range sessions.length) (sessions.map (.start request)) first)
      (shown : classify policy first (List.range sessions.length) = verdicts)
      (enough : verdicts.winner.isSome = true ∨ verdicts.deferred = []) :
      ResolvesTogether policy sessions request (conclusion request verdicts.winner verdicts.failures first) first
  /-- The first pass had no winner, and the deferred repositories are asked again. -/
  | retried {first second : List RequestState} {verdicts further : Verdicts}
      (pass : PassesTogether policy (List.range sessions.length) (sessions.map (.start request)) first)
      (shown : classify policy first (List.range sessions.length) = verdicts)
      (undecided : verdicts.winner = none) (more : verdicts.deferred ≠ [])
      (pass' : PassesTogether policy verdicts.deferred (silenced first) second)
      (shown' : classify policy second verdicts.deferred = further) :
      ResolvesTogether policy sessions request
        (conclusion request further.winner (verdicts.failures ++ further.failures) second) second

section

variable (hp : policy.IgnoresTurns) (schedule : Schedule) (turn : Nat) (sessions : List Session) (request : Request)

include hp

theorem firstPass_together_iff (states : List RequestState) :
    PassesTogether policy (List.range sessions.length) (sessions.map (.start request)) states ↔
      states = (firstPass policy schedule turn sessions request).states :=
  passesTogether_iff hp schedule List.nodup_range ⟨turn, sessions.map (.start request)⟩ states

theorem secondPass_together_iff (states : List RequestState) :
    PassesTogether policy (firstVerdicts policy schedule turn sessions request).deferred
        (silenced (firstPass policy schedule turn sessions request).states) states ↔
      states = (secondPass policy schedule turn sessions request).states :=
  passesTogether_iff hp schedule (nodup_deferred policy schedule turn sessions request)
    { firstPass policy schedule turn sessions request with
      states := silenced (firstPass policy schedule turn sessions request).states } states

/-- A request that asks its repositories at the same time comes to what asking them one after the other does. -/
theorem ResolvesTogether.eq {result : Except Error Resolution} {states : List RequestState}
    (h : ResolvesTogether policy sessions request result states) :
    result = (resolve policy schedule turn sessions request).result ∧
      states = (resolve policy schedule turn sessions request).states := by
  cases h with
  | @decided _ verdicts pass shown enough =>
    obtain rfl := (firstPass_together_iff hp schedule turn sessions request _).mp pass
    obtain rfl : firstVerdicts policy schedule turn sessions request = verdicts := shown
    cases hw : (firstVerdicts policy schedule turn sessions request).winner with
    | some w =>
      obtain ⟨hstates, hresult⟩ := resolve_of_winner policy schedule turn sessions request hw
      rw [hresult, hstates]
      exact ⟨rfl, rfl⟩
    | none =>
      have hd : (firstVerdicts policy schedule turn sessions request).deferred = [] :=
        enough.resolve_left (by rw [hw]; nofun)
      obtain ⟨hstates, hresult⟩ := resolve_of_no_deferred policy schedule turn sessions request hw hd
      exact ⟨hresult.symm, hstates.symm⟩
  | @retried _ _ verdicts further pass shown undecided more pass' shown' =>
    obtain rfl := (firstPass_together_iff hp schedule turn sessions request _).mp pass
    obtain rfl : firstVerdicts policy schedule turn sessions request = verdicts := shown
    obtain rfl := (secondPass_together_iff hp schedule turn sessions request _).mp pass'
    obtain ⟨hstates, hresult⟩ := resolve_of_deferred policy schedule turn sessions request undecided more
    subst shown'
    exact ⟨hresult.symm, hstates.symm⟩

/-- There is a way to ask the repositories of a request at the same time. -/
theorem exists_resolvesTogether : ∃ result states, ResolvesTogether policy sessions request result states := by
  have hfirst := (firstPass_together_iff hp .inOrder 0 sessions request _).mpr rfl
  have hsecond := (secondPass_together_iff hp .inOrder 0 sessions request _).mpr rfl
  cases hw : (firstVerdicts policy .inOrder 0 sessions request).winner with
  | some w => exact ⟨_, _, .decided hfirst rfl (Or.inl (by rw [← firstVerdicts, hw]; rfl))⟩
  | none =>
    by_cases hd : (firstVerdicts policy .inOrder 0 sessions request).deferred = []
    · exact ⟨_, _, .decided hfirst rfl (Or.inr hd)⟩
    · exact ⟨_, _, .retried hfirst rfl hw hd hsecond rfl⟩

/-- Asking the repositories of a pass at the same time is possible, and however their questions interleave, the request comes to
the same result as when one is asked after the other, in any order, and every repository is asked the same in the same order. -/
theorem resolve_together :
    (∃ result states, ResolvesTogether policy sessions request result states) ∧
      ∀ result states, ResolvesTogether policy sessions request result states →
        result = (resolve policy schedule turn sessions request).result ∧
          states = (resolve policy schedule turn sessions request).states ∧
          states.map (·.visit.session) = (resolve policy schedule turn sessions request).sessions := by
  refine ⟨exists_resolvesTogether hp sessions request, fun result states h => ?_⟩
  obtain ⟨hresult, hstates⟩ := h.eq hp schedule turn sessions request
  exact ⟨hresult, hstates, by rw [hstates, Run.sessions]⟩

end

/-- A repository that lists no version nearby, not for certain, and has one remotely. -/
def elsewhere (name version : String) : Session where
  repository := .ofCatalogues name (({} : Catalogue).putListing ⟨"g", "n"⟩ (.versions []))
    (({} : Catalogue).putModules ⟨"g", "n"⟩ [version])

/-- Two repositories that are both asked again, and the second of which wins then. -/
theorem resolve_together_elsewhere :
    (Policy.standard {}).IgnoresTurns ∧
      ((resolve (.standard {}) .inOrder 0 [elsewhere "one" "1.0", elsewhere "two" "2.0"] ⟨"g", "n", "latest"⟩).result.toOption.map
        fun r => (r.repository, r.component.version)) = some ("two", "2.0") ∧
      (∃ result states, ResolvesTogether (.standard {}) [elsewhere "one" "1.0", elsewhere "two" "2.0"] ⟨"g", "n", "latest"⟩
        result states) ∧
      ∀ result states, ResolvesTogether (.standard {}) [elsewhere "one" "1.0", elsewhere "two" "2.0"] ⟨"g", "n", "latest"⟩
          result states →
        result =
            (resolve (.standard {}) .inOrder 0 [elsewhere "one" "1.0", elsewhere "two" "2.0"] ⟨"g", "n", "latest"⟩).result ∧
          states =
            (resolve (.standard {}) .inOrder 0 [elsewhere "one" "1.0", elsewhere "two" "2.0"] ⟨"g", "n", "latest"⟩).states ∧
          states.map (·.visit.session) =
            (resolve (.standard {}) .inOrder 0 [elsewhere "one" "1.0", elsewhere "two" "2.0"] ⟨"g", "n", "latest"⟩).sessions := by
  have hp := Policy.ignoresTurns_standard {}
  refine ⟨hp, ?_, resolve_together hp .inOrder 0 [elsewhere "one" "1.0", elsewhere "two" "2.0"] ⟨"g", "n", "latest"⟩⟩
  rw [Policy.standard_eq]
  decide +kernel

end Resolver

end VersionChain
