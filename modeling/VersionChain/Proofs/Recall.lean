import VersionChain.Proofs.Trace

/-!
# What a candidate probe recalls

A candidate probe may be called by several callers, one at a time, and anything may happen to the repository between two calls. Only
the first call searches: every later one recalls its outcome and asks nothing. So whatever the repository answers, all callers are
told of the same outcome, and each tier is asked once at most.
-/

namespace VersionChain

namespace CandidateProbe

/-! ## Calls -/

/-- What a caller may want of a candidate probe. -/
inductive Call where
  /-- The outcome of the search. -/
  | resolve
  /-- The same outcome, for a policy that inspects the candidate. -/
  | metadata
  /-- The metadata alone; where there is none, `target` is told why. -/
  | tryResolve (target : LookupOutcome)

/-- What a caller is told. -/
inductive Reply where
  | outcome (outcome : LookupOutcome)
  | tried (metadata : Option Metadata) (target : LookupOutcome)

/-- Serves a call. -/
def serve (p : CandidateProbe) (v : Visit) : Call → Reply × CandidateProbe × Visit
  | .resolve | .metadata =>
    let (outcome, p, v) := p.resolve v
    (.outcome outcome, p, v)
  | .tryResolve target =>
    let (metadata, target, p, v) := p.tryResolve target v
    (.tried metadata target, p, v)

/-- A call whose turn it is. -/
structure Turn where
  /-- What has become of the visit since the call before. -/
  meanwhile : Visit → Visit
  call : Call

/-- Serves calls one after another. -/
def serveAll (p : CandidateProbe) (v : Visit) : List Turn → List Reply × CandidateProbe × Visit
  | [] => ([], p, v)
  | turn :: later =>
    let (reply, p, v) := p.serve (turn.meanwhile v) turn.call
    let (replies, p, v) := p.serveAll v later
    (reply :: replies, p, v)

/-- What a call is told when the search came to the given outcome. -/
def Call.reply (found : LookupOutcome) : Call → Reply
  | .resolve | .metadata => .outcome found
  | .tryResolve target => .tried (report found target).1 (report found target).2

theorem serve_eq (p : CandidateProbe) (v : Visit) (call : Call) :
    p.serve v call = (call.reply (p.resolve v).1, (p.resolve v).2) := by
  cases call <;> rfl

/-- A probe that has searched serves a call by what it recalls. -/
theorem serve_of_found {p : CandidateProbe} {o : LookupOutcome} (h : p.found = some o) (v : Visit) (call : Call) :
    p.serve v call = (call.reply o, p, v) := by
  rw [serve_eq, resolve, h]

/-- A probe that has not searched does so, and recalls the outcome from then on. -/
theorem serve_of_not_found {p : CandidateProbe} (h : p.found = none) (v : Visit) (call : Call) :
    p.serve v call = (call.reply (p.search v).1, { p with found := some (p.search v).1 }, (p.search v).2) := by
  rw [serve_eq, resolve, h]

/-- Any number of calls to a probe that has searched are told of what it recalls, and do nothing to the visit. -/
theorem serveAll_of_found {p : CandidateProbe} {o : LookupOutcome} (h : p.found = some o) (turns : List Turn) :
    ∀ v, p.serveAll v turns = (turns.map (·.call.reply o), p, turns.foldl (fun v turn => turn.meanwhile v) v) := by
  induction turns with
  | nil => exact fun v => rfl
  | cons turn later ih =>
    intro v
    rw [serveAll, serve_of_found h]
    dsimp only
    rw [ih]
    rfl

/-! ## The one search -/

/-- The accesses of a search that was answered so. -/
def accesses (p : CandidateProbe) (nearby : LookupOutcome) (remote : Option LookupOutcome) : History :=
  .lookup .nearby p.component p.requested nearby :: remote.toList.map (.lookup .remote p.component p.requested)

/-- What answers come to, the earlier ones giving way to the later ones. -/
def together (nearby : LookupOutcome) (remote : Option LookupOutcome) : LookupOutcome :=
  (nearby :: remote.toList).foldl Outcome.absorb .unknown

/-- The remote answer decides if there is one with a result, the nearby one otherwise. -/
theorem result_together (nearby : LookupOutcome) (remote : Option LookupOutcome) :
    (together nearby remote).result = (remote.bind (·.result)).or nearby.result := by
  cases remote with
  | none => exact Outcome.result_unknown_absorb nearby
  | some o => exact (Outcome.result_absorb _ o).trans (by rw [Outcome.result_unknown_absorb]; rfl)

/-- A search asks the nearby tier once, and the remote tier once more where the nearby answer leaves it open. It comes to what the
answers come to, and the locations of each are noted. -/
theorem search_answers (p : CandidateProbe) (v : Visit) :
    ∃ nearby remote, (p.search v).1 = together nearby remote ∧ v.Asks (p.accesses nearby remote) (p.search v).2 ∧
      (p.search v).2.attempts = v.attempts ++ (p.accesses nearby remote).flatMap Access.attempted ∧
      (remote.isSome = true ↔ needsRemote nearby = true) := by
  have h1 := v.asks_lookup .nearby p.component p.requested
  have hnoted : ∀ (w : Visit) (tier : Tier), (w.lookup tier p.component p.requested).2.attempts =
      w.attempts ++ (w.lookup tier p.component p.requested).1.attempted := fun _ _ => rfl
  have hnoted1 := hnoted v .nearby
  unfold search
  generalize v.lookup .nearby p.component p.requested = l at h1 hnoted1
  obtain ⟨nearby, w⟩ := l
  refine ⟨nearby, ?_⟩
  cases hn : needsRemote nearby with
  | false =>
    refine ⟨none, ?_⟩
    simp only [hn]
    exact ⟨rfl, h1, by simpa [accesses, Access.attempted] using hnoted1, by simp⟩
  | true =>
    have h2 := w.asks_lookup .remote p.component p.requested
    have hnoted2 := hnoted w .remote
    simp only [hn, if_true]
    generalize w.lookup .remote p.component p.requested = l at h2 hnoted2
    obtain ⟨remote, x⟩ := l
    refine ⟨some remote, rfl, h1.trans h2, ?_, by simp⟩
    simp only at hnoted1 hnoted2
    rw [hnoted2, hnoted1]
    simp [accesses, Access.attempted]

theorem report_of_resolved {found : LookupOutcome} {m : Metadata} (h : found.result = some (.resolved m)) (target : LookupOutcome) :
    report found target = (some m, target) := by
  rw [report, h]

theorem report_of_unknown {found : LookupOutcome} (h : found.result = none) (target : LookupOutcome) :
    report found target = (none, target) := by
  rw [report, h]

/-- However often a candidate probe is called, for whatever and whatever happens in between, it searches once, in the first call. That
asks the nearby tier, and the remote tier just if the nearby one knew nothing or reported the version missing without authority, on
account of this version each time. All callers are told of what the answers come to, the remote one first if it has a result, and the
locations of each answer are noted once. A caller whose outcome tells nothing against the version has its target left alone. -/
theorem calls_share_one_search (request : Request) (version : String) (v : Visit) (first : Turn) :
    let component : Component := ⟨request.group, request.name, version⟩
    let requested : Request := ⟨request.group, request.name, version⟩
    ∃ (nearby : LookupOutcome) (remote : Option LookupOutcome) (found : LookupOutcome) (asked : History) (w : Visit),
      (∀ later, (new request version).serveAll v (first :: later) =
        ((first :: later).map (·.call.reply found), { new request version with found := some found },
          later.foldl (fun v turn => turn.meanwhile v) w)) ∧
      asked = .lookup .nearby component requested nearby :: remote.toList.map (.lookup .remote component requested) ∧
      (first.meanwhile v).Asks asked w ∧
      w.attempts = (first.meanwhile v).attempts ++ asked.flatMap Access.attempted ∧
      (remote.isSome = true ↔ nearby.result = none ∨ nearby.result = some .missing ∧ nearby.authoritative = false) ∧
      found.result = (remote.bind (·.result)).or nearby.result ∧
      (∀ m, found.result = some (.resolved m) → ∀ target, (Call.tryResolve target).reply found = .tried (some m) target) ∧
      (found.result = none → ∀ target, (Call.tryResolve target).reply found = .tried none target) := by
  intro component requested
  obtain ⟨nearby, remote, hfound, hasks, hattempts, hremote⟩ := (new request version).search_answers (first.meanwhile v)
  refine ⟨nearby, remote, together nearby remote, _, _, fun later => ?_, rfl, hasks, hattempts, ?_, ?_, fun m hm target => ?_,
    fun hn target => ?_⟩
  · rw [← hfound, serveAll, serve_of_not_found rfl]
    dsimp only
    rw [serveAll_of_found rfl]
    rfl
  · rw [hremote, needsRemote_iff]
  · exact result_together nearby remote
  · rw [Call.reply, report_of_resolved hm]
  · rw [Call.reply, report_of_unknown hn]

end CandidateProbe

end VersionChain
