import VersionChain.Proofs.Trace
import VersionChain.Text.Distinct

/-!
# How a listing probe progresses

A listing probe may be called by several callers, one at a time, and anything may happen to the repository between two calls.
Only a resolve asks anything: the first one asks the nearby tier, and the remote tier too where the nearby one knows nothing;
the second one asks the remote tier that was left; no later one asks. `Progresses` says of each call what it asks and what its
caller is told, by the number of resolves before it. So everything there is to ask was asked after the second resolve.
-/

namespace VersionChain

/-- What an access found out about the versions of a module. -/
def Access.listing? : Access → Option Listing
  | listing _ _ o => o.result
  | lookup .. => none

namespace ListingProbe

/-! ## Calls -/

/-- What a caller may want of a listing probe. -/
inductive Call where
  /-- One step further, and the state after it. -/
  | resolve
  /-- The state as it is. -/
  | state
  /-- Whether the remote tier may still be asked. -/
  | canGoFurther
  /-- The locations searched so far, in addition to those in `target`. -/
  | applyTo (target : List String)

/-- What a caller is told. -/
inductive Reply where
  | state (state : Option Listing)
  | further (further : Bool)
  | applied (target : List String)

/-- Serves a call. -/
def serve (p : ListingProbe) (v : Visit) : Call → Reply × ListingProbe × Visit
  | .resolve =>
    let (p, v) := p.resolve v
    (.state p.state, p, v)
  | .state => (.state p.state, p, v)
  | .canGoFurther => (.further p.canGoFurther, p, v)
  | .applyTo target => (.applied (Text.insertAll target p.attempted), p, v)

/-- A call whose turn it is. -/
structure Turn where
  /-- What has become of the visit since the call before. -/
  meanwhile : Visit → Visit
  call : Call

/-- A call that was served: the visit when its turn came, the visit after it, and what the caller was told. -/
structure Served where
  call : Call
  before : Visit
  after : Visit
  reply : Reply

/-- Serves calls one after another. -/
def serveAll (p : ListingProbe) (v : Visit) : List Turn → List Served
  | [] => []
  | turn :: later =>
    let before := turn.meanwhile v
    let (reply, p, after) := p.serve before turn.call
    ⟨turn.call, before, after, reply⟩ :: p.serveAll after later

/-! ## What each call asks and is told -/

section

variable (request : Request) (nearby remote : ListingOutcome)

/-- What a resolve asks after the given number of others, where the tiers answer so. -/
def asks : Nat → History
  | 0 => .listing .nearby request nearby :: if nearby.hasResult then [] else [.listing .remote request remote]
  | 1 => if nearby.hasResult && !nearby.authoritative then [.listing .remote request remote] else []
  | _ => []

/-- What the given number of resolves have asked. -/
def askedBy (n : Nat) : History := (List.range n).flatMap (asks request nearby remote)

/-- The last of the answers to them that says anything. -/
def saidBy (n : Nat) : Option Listing := ((askedBy request nearby remote n).filterMap Access.listing?).getLast?

/-- The remote tier was asked by then, or it was ruled out by a nearby result with authority. -/
def ClosedBy (n : Nat) : Prop :=
  (∃ o, .listing .remote request o ∈ askedBy request nearby remote n) ∨
    0 < n ∧ nearby.hasResult = true ∧ nearby.authoritative = true

/-- How calls are served after the given number of resolves. -/
inductive Progresses : Nat → List Served → Prop where
  | nil (n : Nat) : Progresses n []
  /-- A resolve asks what is left to its place, and tells what all answers come to. -/
  | resolve {n : Nat} {before after : Visit} {later : List Served} (asking : before.Asks (asks request nearby remote n) after)
      (rest : Progresses (n + 1) later) :
      Progresses n (⟨.resolve, before, after, .state (saidBy request nearby remote (n + 1))⟩ :: later)
  /-- The state is what the last resolve has told. -/
  | state {n : Nat} {v : Visit} {later : List Served} (rest : Progresses n later) :
      Progresses n (⟨.state, v, v, .state (saidBy request nearby remote n)⟩ :: later)
  /-- There is no way further once the remote tier was asked or ruled out. -/
  | canGoFurther {n : Nat} {v : Visit} {later : List Served} {further : Bool}
      (closed : further = false ↔ ClosedBy request nearby remote n) (rest : Progresses n later) :
      Progresses n (⟨.canGoFurther, v, v, .further further⟩ :: later)
  /-- The locations of all answers so far are added, in their order. -/
  | applyTo {n : Nat} {v : Visit} {later : List Served} {target : List String} (rest : Progresses n later) :
      Progresses n (⟨.applyTo target, v, v,
        .applied (Text.insertAll target ((askedBy request nearby remote n).flatMap Access.attempted))⟩ :: later)

end

variable {request : Request} {nearby remote : ListingOutcome} {n : Nat} {p : ListingProbe}

theorem asks_zero_of_known (h : nearby.hasResult = true) (remote : ListingOutcome) :
    asks request nearby remote 0 = [.listing .nearby request nearby] := by
  rw [asks, if_pos h]

theorem asks_zero_of_silent (h : nearby.hasResult = false) (remote : ListingOutcome) :
    asks request nearby remote 0 = [.listing .nearby request nearby, .listing .remote request remote] := by
  simp [asks, h]

theorem asks_of_two_le (h : 2 ≤ n) : asks request nearby remote n = [] := by
  match n, h with
  | _ + 2, _ => rfl

/-- Unless the nearby answer is a result without authority, there is nothing to ask after the first resolve. -/
theorem asks_of_one_le (hdone : nearby.hasResult = true → nearby.authoritative = true) (h : 1 ≤ n) :
    asks request nearby remote n = [] := by
  match n, h with
  | 1, _ =>
    refine if_neg ?_
    rw [Bool.and_eq_true, Bool.not_eq_true']
    rintro ⟨hknown, hpending⟩
    nomatch hpending.symm.trans (hdone hknown)
  | _ + 2, _ => rfl

theorem askedBy_succ (request : Request) (nearby remote : ListingOutcome) (n : Nat) :
    askedBy request nearby remote (n + 1) = askedBy request nearby remote n ++ asks request nearby remote n := by
  rw [askedBy, askedBy, List.range_succ, List.flatMap_append, List.flatMap_singleton]

theorem askedBy_one (request : Request) (nearby remote : ListingOutcome) :
    askedBy request nearby remote 1 = asks request nearby remote 0 := by
  rw [askedBy_succ]
  rfl

/-- Two resolves have asked all that any number of them asks. -/
theorem askedBy_add_two (request : Request) (nearby remote : ListingOutcome) (n : Nat) :
    askedBy request nearby remote (n + 2) = askedBy request nearby remote 2 := by
  induction n with
  | zero => rfl
  | succ n ih => rw [Nat.add_right_comm, askedBy_succ, asks_of_two_le (Nat.le_add_left 2 n), List.append_nil, ih]

/-! ## What the accesses so far tell about a probe -/

/-- The state is the last answer that says anything. -/
theorem Traced.state_eq_getLast? {asked : History} (h : Traced request asked p) :
    p.state = (asked.filterMap Access.listing?).getLast? := by
  cases h with
  | fresh => rfl
  | remoteLeft | closed =>
    rw [state, Outcome.result_unknown_absorb]
    rename_i o _ _
    cases hr : o.result <;> simp [Access.listing?, hr]
  | @both o o' =>
    rw [state, Outcome.result_absorb, Outcome.result_unknown_absorb]
    cases hr : o.result <;> cases hr' : o'.result <;> simp [Access.listing?, hr, hr']

/-- The locations are those of the answers, in their order. -/
theorem Traced.attempted_eq_flatMap {asked : History} (h : Traced request asked p) :
    p.attempted = asked.flatMap Access.attempted := by
  cases h <;> simp [attempted, Access.attempted, Outcome.unknown]

/-- What was asked tells how many resolves there were: none without any access, and the first access has the nearby answer. -/
theorem askedBy_zero_or (request : Request) (nearby remote : ListingOutcome) (n : Nat) :
    n = 0 ∧ askedBy request nearby remote n = [] ∨
      0 < n ∧ ∃ more, askedBy request nearby remote n = .listing .nearby request nearby :: more := by
  cases n with
  | zero => exact Or.inl ⟨rfl, rfl⟩
  | succ n =>
    refine Or.inr ⟨n.succ_pos, ?_⟩
    rw [askedBy, List.range_succ_eq_map, List.flatMap_cons]
    exact ⟨_, rfl⟩

/-- The probe can go no further once the remote tier was asked or ruled out. -/
theorem Traced.canGoFurther_eq_false_iff (h : Traced request (askedBy request nearby remote n) p) :
    p.canGoFurther = false ↔ ClosedBy request nearby remote n := by
  have hasked := askedBy_zero_or request nearby remote n
  unfold ClosedBy
  generalize askedBy request nearby remote n = asked at h hasked
  cases h with
  | fresh =>
    obtain rfl : n = 0 := by simpa using hasked
    simp [canGoFurther]
  | remoteLeft known pending =>
    obtain ⟨-, more, hfirst⟩ := hasked.resolve_left fun h => List.cons_ne_nil _ _ h.2
    obtain ⟨rfl, -⟩ : _ = nearby ∧ _ := by simpa using hfirst
    simp [canGoFurther, pending]
  | closed known final =>
    obtain ⟨hn, more, hfirst⟩ := hasked.resolve_left fun h => List.cons_ne_nil _ _ h.2
    obtain ⟨rfl, -⟩ : _ = nearby ∧ _ := by simpa using hfirst
    simp [canGoFurther, hn, known, final]
  | both pending => simp [canGoFurther]

/-! ## The calls one after another -/

/-- A call that is not a resolve leaves the probe and the visit alone, and tells what the accesses so far tell. -/
theorem Progresses.of_ne_resolve (h : Traced request (askedBy request nearby remote n) p) {turn : Turn}
    (hcall : turn.call ≠ .resolve) {v : Visit} {later : List Turn}
    (rest : Progresses request nearby remote n (p.serveAll (turn.meanwhile v) later)) :
    Progresses request nearby remote n (p.serveAll v (turn :: later)) := by
  obtain ⟨meanwhile, call⟩ := turn
  cases call with
  | resolve => exact absurd rfl hcall
  | state =>
    have hstate : p.state = saidBy request nearby remote n := h.state_eq_getLast?
    unfold serveAll serve
    dsimp only
    rw [hstate]
    exact .state rest
  | canGoFurther => exact .canGoFurther h.canGoFurther_eq_false_iff rest
  | applyTo target =>
    unfold serveAll serve
    dsimp only
    rw [h.attempted_eq_flatMap]
    exact .applyTo rest

/-- A resolve that asks what is left to its place tells what all answers come to. -/
theorem Progresses.of_resolve {turn : Turn} (hcall : turn.call = .resolve) {v : Visit} {later : List Turn}
    (asking : (turn.meanwhile v).Asks (asks request nearby remote n) (p.resolve (turn.meanwhile v)).2)
    (h : Traced request (askedBy request nearby remote (n + 1)) (p.resolve (turn.meanwhile v)).1)
    (rest : Progresses request nearby remote (n + 1)
      ((p.resolve (turn.meanwhile v)).1.serveAll (p.resolve (turn.meanwhile v)).2 later)) :
    Progresses request nearby remote n (p.serveAll v (turn :: later)) := by
  have hstate : (p.resolve (turn.meanwhile v)).1.state = saidBy request nearby remote (n + 1) := h.state_eq_getLast?
  unfold serveAll serve
  rw [hcall]
  dsimp only
  rw [hstate]
  exact .resolve asking rest

/-- A probe that can go no further is asked in vain: calls do nothing to it, and nothing is asked. -/
theorem progresses_of_settled (h : Traced request (askedBy request nearby remote n) p) (hsettled : p.canGoFurther = false)
    (hdone : ∀ m, n ≤ m → asks request nearby remote m = []) (turns : List Turn) (v : Visit) :
    Progresses request nearby remote n (p.serveAll v turns) := by
  induction turns generalizing n v with
  | nil => exact .nil n
  | cons turn later ih =>
    by_cases hcall : turn.call = .resolve
    · have hstage : p.stage = .settled := by simpa [canGoFurther] using hsettled
      have hstays : p.resolve (turn.meanwhile v) = (p, turn.meanwhile v) := by rw [resolve, hstage]
      have hnext : Traced request (askedBy request nearby remote (n + 1)) p := by
        rw [askedBy_succ, hdone n (Nat.le_refl n), List.append_nil]
        exact h
      refine .of_resolve hcall ?_ ?_ ?_
      · rw [hstays, hdone n (Nat.le_refl n)]
        exact .refl _
      · rw [hstays]
        exact hnext
      · rw [hstays]
        exact ih hnext (fun m hm => hdone m (by omega)) _
    · exact .of_ne_resolve h hcall (ih h hdone _)

/-- A probe to which the remote tier is left asks it in the next resolve. -/
theorem exists_progresses_of_remoteLeft (hknown : nearby.hasResult = true) (hpending : nearby.authoritative = false)
    (h : Traced request [.listing .nearby request nearby] p) (hleft : p.canGoFurther = true) (turns : List Turn) (v : Visit) :
    ∃ remote, Progresses request nearby remote 1 (p.serveAll v turns) := by
  have hone : ∀ remote, askedBy request nearby remote 1 = [.listing .nearby request nearby] := by
    intro remote
    rw [askedBy_one, asks_zero_of_known hknown]
  induction turns generalizing v with
  | nil => exact ⟨.unknown, .nil 1⟩
  | cons turn later ih =>
    by_cases hcall : turn.call = .resolve
    · obtain ⟨more, hasks, htraced, hremote, -, hsettled⟩ := h.resolve_of_ne_fresh h.stage_ne_fresh (turn.meanwhile v)
      obtain ⟨remote, rfl⟩ := hremote hleft
      have hsecond : asks request nearby remote 1 = [.listing .remote request remote] := by
        simp [asks, hknown, hpending]
      have hnext : Traced request (askedBy request nearby remote (1 + 1)) (p.resolve (turn.meanwhile v)).1 := by
        rw [askedBy_succ, hone, hsecond]
        exact htraced
      refine ⟨remote, .of_resolve hcall ?_ hnext (progresses_of_settled hnext hsettled (fun m => asks_of_two_le) _ _)⟩
      rw [hsecond]
      exact hasks
    · obtain ⟨remote, hrest⟩ := ih (turn.meanwhile v)
      refine ⟨remote, .of_ne_resolve ?_ hcall hrest⟩
      rw [hone]
      exact h

/-- The first resolve leaves the remote tier, rules it out, or asks it at once. -/
theorem exists_progresses_of_fresh {turn : Turn} (hcall : turn.call = .resolve) (later : List Turn) (v : Visit) :
    ∃ nearby remote, Progresses request nearby remote 0 (serveAll { request } v (turn :: later)) := by
  obtain ⟨nearby, more, hasks, htraced, hmore, hleft⟩ := traced_resolve_fresh request (turn.meanwhile v)
  refine ⟨nearby, ?_⟩
  rcases hmore with ⟨rfl, hknown⟩ | ⟨⟨remote, rfl⟩, hsilent⟩
  · have hfirst : ∀ remote, asks request nearby remote 0 = [.listing .nearby request nearby] := asks_zero_of_known hknown
    have hnext : ∀ remote, Traced request (askedBy request nearby remote (0 + 1)) (resolve { request } (turn.meanwhile v)).1 := by
      intro remote
      rw [askedBy_one, hfirst]
      exact htraced
    -- the remote answer is the one that the next resolve gets, or any where the remote tier is ruled out
    have hrest : ∃ remote, Progresses request nearby remote 1
        (serveAll (resolve { request } (turn.meanwhile v)).1 (resolve { request } (turn.meanwhile v)).2 later) := by
      cases hfinal : nearby.authoritative with
      | false => exact exists_progresses_of_remoteLeft hknown hfinal htraced (hleft.mpr ⟨hknown, hfinal⟩) later _
      | true =>
        have hsettled := Bool.eq_false_iff.mpr fun h => nomatch hfinal.symm.trans (hleft.mp h).2
        exact ⟨.unknown, progresses_of_settled (hnext .unknown) hsettled (fun m => asks_of_one_le fun _ => hfinal) later _⟩
    obtain ⟨remote, hrest⟩ := hrest
    exact ⟨remote, .of_resolve hcall (by rw [hfirst]; exact hasks) (hnext remote) hrest⟩
  · have hfirst : asks request nearby remote 0 = [.listing .nearby request nearby, .listing .remote request remote] :=
      asks_zero_of_silent hsilent remote
    have hnext : Traced request (askedBy request nearby remote (0 + 1)) (resolve { request } (turn.meanwhile v)).1 := by
      rw [askedBy_one, hfirst]
      exact htraced
    have hsettled := Bool.eq_false_iff.mpr fun h => nomatch hsilent.symm.trans (hleft.mp h).1
    have hdone : nearby.hasResult = true → nearby.authoritative = true := fun h => nomatch hsilent.symm.trans h
    exact ⟨remote, .of_resolve hcall (by rw [hfirst]; exact hasks) hnext
      (progresses_of_settled hnext hsettled (fun m => asks_of_one_le hdone) later _)⟩

/-- However a listing probe is called and whatever happens in between, there are a nearby and a remote answer by which every
call is served. The first resolve asks the nearby tier, and the remote tier too just if the nearby answer says nothing; the
second one asks the remote tier if the nearby answer says something without authority. Nothing else is ever asked, so nothing
changes after the second resolve. The state is what the last resolve has told, and nothing before the first. -/
theorem calls_progress (request : Request) (v : Visit) (turns : List Turn) :
    ∃ nearby remote : ListingOutcome,
      Progresses request nearby remote 0 (serveAll { request } v turns) ∧
      saidBy request nearby remote 0 = none ∧
      ∀ n, askedBy request nearby remote (n + 2) = askedBy request nearby remote 2 := by
  suffices h : ∃ nearby remote, Progresses request nearby remote 0 (serveAll { request } v turns) by
    obtain ⟨nearby, remote, h⟩ := h
    exact ⟨nearby, remote, h, rfl, askedBy_add_two request nearby remote⟩
  induction turns generalizing v with
  | nil => exact ⟨.unknown, .unknown, .nil 0⟩
  | cons turn later ih =>
    by_cases hcall : turn.call = .resolve
    · exact exists_progresses_of_fresh hcall later v
    · obtain ⟨nearby, remote, hrest⟩ := ih (turn.meanwhile v)
      exact ⟨nearby, remote, .of_ne_resolve .fresh hcall hrest⟩

end ListingProbe

end VersionChain
