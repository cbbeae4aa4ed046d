import VersionChain.Proofs.Judgement

/-!
# What the standard policy says of every version

The standard policy goes through a listing from the newest version to the oldest. A selector of one version ends the walk at the
first version that is selected. Of every version that is reached, the policy says whether it is what the selector asks for, and
whether a rule excludes it; `Remark` is what an error repeats of that.
-/

namespace VersionChain

namespace Policy

/-! ## Versions from the newest to the oldest -/

/-- The versions from the newest to the oldest. -/
def newestFirst (versions : List String) : List String :=
  versions.mergeSort fun v w => (Version.compare ⟨w⟩ ⟨v⟩).isLE

theorem newestFirst_perm (versions : List String) : (newestFirst versions).Perm versions := List.mergeSort_perm versions _

theorem NoOlder.trans (u v w : String) (h : NoOlder u v) (h' : NoOlder v w) : NoOlder u w :=
  Std.TransCmp.isLE_trans h' h

theorem noOlder_total (v w : String) :
    ((Version.compare ⟨w⟩ ⟨v⟩).isLE || (Version.compare ⟨v⟩ ⟨w⟩).isLE) = true := by
  cases hc : Version.compare ⟨w⟩ ⟨v⟩ with
  | lt | eq => simp
  | gt => simp [Std.OrientedCmp.lt_of_gt hc]

theorem pairwise_newestFirst (versions : List String) : (newestFirst versions).Pairwise NoOlder :=
  List.pairwise_mergeSort NoOlder.trans noOlder_total versions

/-- Versions of which neither is older are the same text. -/
theorem NoOlder.antisymm {v w : String} (h : NoOlder v w) (h' : NoOlder w v) : v = w := by
  have heq := Std.LawfulEqCmp.eq_of_compare (Std.OrientedCmp.isLE_antisymm h' h)
  exact congrArg Version.source heq

/-- There is one way to put versions in order, in whatever order they were listed. -/
theorem eq_of_perm_of_pairwise {versions versions' : List String} (h : versions.Perm versions')
    (hp : versions.Pairwise NoOlder) (hp' : versions'.Pairwise NoOlder) : versions = versions' :=
  h.eq_of_pairwise (fun _ _ _ _ => NoOlder.antisymm) hp hp'

theorem newestFirst_congr {versions versions' : List String} (h : versions.Perm versions') :
    newestFirst versions = newestFirst versions' :=
  eq_of_perm_of_pairwise (((newestFirst_perm versions).trans h).trans (newestFirst_perm versions').symm)
    (pairwise_newestFirst versions) (pairwise_newestFirst versions')

theorem map_version_newestFirst (request : Request) (versions : List String) :
    (Candidate.newestFirst (Candidate.offer request versions)).map (·.component.version) = newestFirst versions := by
  have hperm := (List.mergeSort_perm (Candidate.offer request versions)
    fun a b => (Version.compare b.version a.version).isLE).map (·.component.version)
  rw [offer_map_version] at hperm
  exact eq_of_perm_of_pairwise (hperm.trans (newestFirst_perm versions).symm)
    (List.pairwise_map.mpr (Candidate.pairwise_newestFirst (Candidate.offer request versions)))
    (pairwise_newestFirst versions)

/-- The components that are judged, in the order in which they are judged. -/
theorem map_component_newestFirst (request : Request) (versions : List String) :
    (Candidate.newestFirst (Candidate.offer request versions)).map (·.component) =
      (newestFirst versions).map request.component := by
  rw [← map_version_newestFirst request, List.map_map]
  refine List.map_congr_left fun c hc => ?_
  rw [Candidate.newestFirst, List.mem_mergeSort, Candidate.offer, List.mem_map] at hc
  obtain ⟨p, -, rfl⟩ := hc
  rfl

/-! ## What is said of a version -/

variable (matcher : Matcher) (rules : Rules) (answer : String → LookupOutcome)

/-- Whether the selector asks for a version about which a given metadata answer is known. -/
def wants (o : LookupOutcome) (v : String) : Bool :=
  matcher.accepts ⟨v⟩ && (!matcher.needsMetadata || o.metadata?.any matcher.acceptsMetadata)

/-- Whether the version is selected. -/
def selects (o : LookupOutcome) (v : String) : Bool := wants matcher o v && !rules.rejects ⟨v⟩

/-- The walk through a listing comes to a version: if the selector asks for one version only, no newer one is selected. -/
def Reaches (versions : List String) (v : String) : Prop :=
  matcher.isUnique = true → ∀ w ∈ versions, Version.compare ⟨w⟩ ⟨v⟩ = .gt → selects matcher rules (answer w) w = false

instance (versions : List String) (v : String) : Decidable (Reaches matcher rules answer versions v) :=
  inferInstanceAs (Decidable (_ → ∀ w ∈ versions, _ → _))

end Policy

/-- What an error says of a version that is not chosen. -/
inductive Remark where
  /-- The selector does not ask for it. -/
  | unmatched
  /-- The selector asks for it, but a rule excludes it. -/
  | rejected
deriving DecidableEq

namespace Remark

/-- The version of which a verdict makes the remark. -/
def of? : Remark → Verdict → Option String
  | unmatched, .notMatched version => some version
  | rejected, .rejected version => some version
  | _, _ => none

/-- Whether the standard policy makes the remark of a version that it comes to. -/
def applies (matcher : Matcher) (rules : Rules) (o : LookupOutcome) (v : String) : Remark → Bool
  | unmatched => !Policy.wants matcher o v
  | rejected => Policy.wants matcher o v && rules.rejects ⟨v⟩

/-- Nothing is remarked of a version that is selected. -/
theorem applies_of_selects {matcher : Matcher} {rules : Rules} {o : LookupOutcome} {v : String} (r : Remark)
    (h : Policy.selects matcher rules o v = true) : r.applies matcher rules o v = false := by
  rw [Policy.selects, Bool.and_eq_true, Bool.not_eq_true'] at h
  cases r with
  | unmatched => rw [applies, h.1]; rfl
  | rejected => rw [applies, h.2, Bool.and_false]

end Remark

namespace Policy

variable {matcher : Matcher} {rules : Rules} {answer : String → LookupOutcome} {offered : List String}

/-! ## The verdicts along a walk -/

/-- The verdict on a candidate about whose metadata an answer is known, unless that is a failure. -/
def verdictOn (matcher : Matcher) (rules : Rules) (o : LookupOutcome) (c : Candidate) : Verdict :=
  if wants matcher o c.component.version then ruled rules c else .notMatched c.component.version

/-- Unless metadata that is needed fails, this is the verdict that is given. -/
theorem judge_eq_verdictOn {o : LookupOutcome} (c : Candidate)
    (ho : matcher.needsMetadata = true → ∀ f, o.result ≠ some (.failed f)) :
    judge matcher rules o c = verdictOn matcher rules o c := by
  have haccepts : matcher.accepts ⟨c.component.version⟩ = matcher.accepts c.version := rfl
  unfold judge verdictOn wants
  rw [haccepts]
  cases ha : matcher.accepts c.version with
  | false => rfl
  | true =>
    cases hn : matcher.needsMetadata with
    | false => rfl
    | true =>
      unfold inspected LookupOutcome.metadata?
      rcases hr : o.result with _ | m | _ | f
      · rfl
      · rfl
      · rfl
      · exact absurd hr (ho hn f)

theorem isAMatch_verdictOn (o : LookupOutcome) (c : Candidate) :
    (verdictOn matcher rules o c).isAMatch = selects matcher rules o c.component.version := by
  have hrej : rules.rejects c.version = rules.rejects ⟨c.component.version⟩ := rfl
  unfold verdictOn ruled selects
  rw [hrej]
  cases wants matcher o c.component.version <;> cases rules.rejects ⟨c.component.version⟩ <;> rfl

theorem settles_verdictOn (o : LookupOutcome) (c : Candidate) :
    (verdictOn matcher rules o c).settles matcher = (matcher.isUnique && selects matcher rules o c.component.version) := by
  rw [← isAMatch_verdictOn]
  unfold verdictOn ruled
  cases wants matcher o c.component.version <;> cases rules.rejects c.version <;>
    simp [Verdict.settles, Verdict.isAMatch]

/-- A remark is made of a candidate just where it applies. -/
theorem of?_verdictOn (matcher : Matcher) (rules : Rules) (r : Remark) (o : LookupOutcome) (c : Candidate) :
    r.of? (verdictOn matcher rules o c) =
      if r.applies matcher rules o c.component.version then some c.component.version else none := by
  have hrej : rules.rejects c.version = rules.rejects ⟨c.component.version⟩ := rfl
  unfold verdictOn ruled Remark.applies
  rw [hrej]
  cases wants matcher o c.component.version <;> cases rules.rejects ⟨c.component.version⟩ <;> cases r <;> rfl

/-- The versions that a walk comes to, of those that are given in its order. -/
def reached (matcher : Matcher) (rules : Rules) (answer : String → LookupOutcome) : List String → List String
  | [] => []
  | v :: versions =>
    v :: if matcher.isUnique && selects matcher rules (answer v) v then [] else reached matcher rules answer versions

/-- How a walk goes on after its first candidate. -/
theorem run_walk_cons {c : Candidate} {cs : List Candidate} (hp : offered[c.position]? = some c.component.version)
    (hok : matcher.needsMetadata = true → ∀ v f, (answer v).result ≠ some (.failed f)) (found : Bool) :
    ((walk matcher rules found (c :: cs)).run (offered.map answer)).1 =
      verdictOn matcher rules (answer c.component.version) c ::
        if matcher.isUnique && selects matcher rules (answer c.component.version) c.component.version then []
        else ((walk matcher rules (found || selects matcher rules (answer c.component.version) c.component.version) cs).run
          (offered.map answer)).1 := by
  have hjudged : judgeAt matcher rules (offered.map answer) c = verdictOn matcher rules (answer c.component.version) c := by
    rw [judgeAt_of_placed hp]
    exact judge_eq_verdictOn c fun hn => hok hn c.component.version
  rw [run_walk_judge, hjudged, settles_verdictOn, isAMatch_verdictOn]

/-- Along a walk, a remark is made of the versions that are reached and to which it applies. -/
theorem remarks_walk (r : Remark) (hok : matcher.needsMetadata = true → ∀ v f, (answer v).result ≠ some (.failed f))
    {cs : List Candidate} (hp : Placed offered cs) :
    ∀ found : Bool, ((walk matcher rules found cs).run (offered.map answer)).1.filterMap r.of? =
      (reached matcher rules answer (cs.map (·.component.version))).filter fun v => r.applies matcher rules (answer v) v := by
  induction cs with
  | nil =>
    intro found
    cases found <;> cases r <;> rfl
  | cons c cs ih =>
    intro found
    have hrest := ih (fun x hx => hp x (List.mem_cons_of_mem _ hx))
      (found || selects matcher rules (answer c.component.version) c.component.version)
    rw [run_walk_cons (hp c List.mem_cons_self) hok, List.map_cons, reached]
    generalize (matcher.isUnique && selects matcher rules (answer c.component.version) c.component.version) = stop
    have hgoes : (if stop then [] else ((walk matcher rules
          (found || selects matcher rules (answer c.component.version) c.component.version) cs).run
            (offered.map answer)).1).filterMap r.of? =
        (if stop then [] else reached matcher rules answer (cs.map (·.component.version))).filter
          fun v => r.applies matcher rules (answer v) v := by
      cases stop
      · exact hrest
      · rfl
    have hremark := of?_verdictOn matcher rules r (answer c.component.version) c
    by_cases happ : r.applies matcher rules (answer c.component.version) c.component.version = true
    · rw [if_pos happ] at hremark
      rw [List.filterMap_cons_some hremark, hgoes, List.filter_cons, if_pos happ]
    · rw [if_neg happ] at hremark
      rw [List.filterMap_cons_none hremark, hgoes, List.filter_cons, if_neg happ]

/-- Of versions from the newest to the oldest, the walk comes to those that it reaches. One that ends the walk is selected, and of
such a version nothing is remarked. -/
theorem filter_reached {p : String → Bool} (hp : ∀ v, p v = true → selects matcher rules (answer v) v = false)
    {versions : List String} (h : versions.Pairwise NoOlder) :
    (reached matcher rules answer versions).filter p =
      versions.filter fun v => decide (Reaches matcher rules answer versions v) && p v := by
  induction versions with
  | nil => rfl
  | cons v versions ih =>
    obtain ⟨hv, h⟩ := List.pairwise_cons.mp h
    have hnewest : ∀ w ∈ v :: versions, NoOlder v w := by
      rintro w (_ | ⟨_, hw⟩)
      · exact Std.ReflCmp.isLE_rfl
      · exact hv w hw
    by_cases hstop : (matcher.isUnique && selects matcher rules (answer v) v) = true
    · obtain ⟨hu, hselected⟩ := Bool.and_eq_true_iff.mp hstop
      have hnone : ∀ w ∈ v :: versions, ¬(decide (Reaches matcher rules answer (v :: versions) w) && p w) = true := by
        intro w hw hkept
        obtain ⟨hreaches, hpw⟩ := Bool.and_eq_true_iff.mp hkept
        -- a version that is reached all the same is of the same text
        have hnot : Version.compare ⟨v⟩ ⟨w⟩ ≠ .gt := fun hgt =>
          nomatch (of_decide_eq_true hreaches hu v List.mem_cons_self hgt).symm.trans hselected
        obtain rfl := (hnewest w hw).antisymm (Ordering.isLE_iff_ne_gt.mpr hnot)
        nomatch hselected.symm.trans (hp v hpw)
      rw [reached, if_pos hstop, List.filter_eq_nil_iff.mpr hnone]
      refine List.filter_cons_of_neg fun hpv => ?_
      nomatch hselected.symm.trans (hp v hpv)
    · have hsame : ∀ w, Reaches matcher rules answer (v :: versions) w ↔ Reaches matcher rules answer versions w := by
        refine fun w => ⟨fun h hu x hx => h hu x (List.mem_cons_of_mem _ hx), fun h hu => ?_⟩
        rintro x (_ | ⟨_, hx⟩) hgt
        · exact Bool.eq_false_iff.mpr fun hselected => hstop (Bool.and_eq_true_iff.mpr ⟨hu, hselected⟩)
        · exact h hu x hx hgt
      have hself : Reaches matcher rules answer versions v := (hsame v).mp fun _ w hw hgt =>
        absurd hgt (Ordering.isLE_iff_ne_gt.mp (hnewest w hw))
      simp only [reached, if_neg hstop, List.filter_cons, hsame, hself, decide_true, Bool.true_and, ih h]

/-- What is remarked of the versions of a listing, from the newest to the oldest. -/
def remarks (rules : Rules) (request : Request) (answer : String → LookupOutcome) (r : Remark) (versions : List String) :
    List String :=
  match Matcher.ofSelector request.selector with
  | .ok matcher => (newestFirst versions).filter fun v =>
    decide (Reaches matcher rules answer versions v) && r.applies matcher rules (answer v) v
  | .error _ => []

theorem reaches_newestFirst (matcher : Matcher) (rules : Rules) (answer : String → LookupOutcome) (versions : List String)
    (v : String) :
    Reaches matcher rules answer (newestFirst versions) v ↔ Reaches matcher rules answer versions v := by
  unfold Reaches
  simp only [(newestFirst_perm versions).mem_iff]

/-- The standard policy makes just these remarks, unless it meets metadata that it needs and that fails. -/
theorem remarks_standardSelect {request : Request} {versions : List String} (r : Remark)
    (hok : ∀ matcher, Matcher.ofSelector request.selector = .ok matcher → matcher.needsMetadata = true →
      ∀ v f, (answer v).result ≠ some (.failed f)) :
    ((standardSelect rules (Candidate.offer request versions) request).run (versions.map answer)).1.filterMap r.of? =
      remarks rules request answer r versions := by
  unfold standardSelect remarks
  cases hsel : Matcher.ofSelector request.selector with
  | error e => cases r <;> rfl
  | ok matcher =>
    dsimp only
    have hselected : ∀ v, r.applies matcher rules (answer v) v = true → selects matcher rules (answer v) v = false :=
      fun v happ => Bool.eq_false_iff.mpr fun hs => nomatch happ.symm.trans (r.applies_of_selects hs)
    rw [remarks_walk r (hok matcher hsel) (placed_newestFirst request versions), map_version_newestFirst,
      filter_reached hselected (pairwise_newestFirst versions)]
    simp only [reaches_newestFirst]

theorem mem_remarks {request : Request} {versions : List String} {r : Remark} {v : String} :
    v ∈ remarks rules request answer r versions ↔
      ∃ matcher, Matcher.ofSelector request.selector = .ok matcher ∧ v ∈ versions ∧ Reaches matcher rules answer versions v ∧
        r.applies matcher rules (answer v) v = true := by
  unfold remarks
  cases Matcher.ofSelector request.selector with
  | error e => simp
  | ok matcher => simp [(newestFirst_perm versions).mem_iff]

end Policy

end VersionChain
