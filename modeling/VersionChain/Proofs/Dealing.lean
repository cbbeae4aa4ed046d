import Mathlib.Logic.Function.Iterate
import VersionChain.Proofs.Account

/-!
# A step, question by question

A step of a request in one repository asks its tiers a few questions in turn, and what it asks next depends on the answers. A
`Dealing` is such a step between two questions: it can be taken up to the next question and left there. Asked through to the end,
the dealings of a state come to what its step comes to.
-/

namespace VersionChain

/-- Dealings with one repository: they are over, or a tier is asked a question and they go on by the answer. -/
inductive Dealing (α : Type) where
  | done (a : α)
  | list (visit : Visit) (tier : Tier) (request : Request) (next : ListingOutcome × Visit → Dealing α)
  | lookup (visit : Visit) (tier : Tier) (component : Component) (requested : Request)
      (next : LookupOutcome × Visit → Dealing α)

namespace Dealing

variable {α β : Type}

/-- Asks the next question, if there is one. -/
def advance : Dealing α → Dealing α
  | done a => done a
  | list visit tier request next => next (visit.list tier request)
  | lookup visit tier component requested next => next (visit.lookup tier component requested)

/-- Asks all questions that are left. -/
def finish : Dealing α → α
  | done a => a
  | list visit tier request next => (next (visit.list tier request)).finish
  | lookup visit tier component requested next => (next (visit.lookup tier component requested)).finish

/-- Further dealings after the given ones. -/
def andThen (d : Dealing α) (more : α → Dealing β) : Dealing β :=
  match d with
  | done a => more a
  | list visit tier request next => list visit tier request fun answer => (next answer).andThen more
  | lookup visit tier component requested next =>
    lookup visit tier component requested fun answer => (next answer).andThen more

/-- A question that is asked beforehand changes nothing in the end. -/
@[simp] theorem finish_advance (d : Dealing α) : d.advance.finish = d.finish := by
  cases d <;> rfl

@[simp] theorem finish_andThen (d : Dealing α) (more : α → Dealing β) :
    (d.andThen more).finish = (more d.finish).finish := by
  induction d with
  | done a => rfl
  | list visit tier request next ih => exact ih _
  | lookup visit tier component requested next ih => exact ih _

/-- Dealings are over after finitely many questions. -/
theorem exists_advance_eq_done (d : Dealing α) : ∃ n, advance^[n] d = done d.finish := by
  induction d with
  | done a => exact ⟨0, rfl⟩
  | list visit tier request next ih =>
    obtain ⟨n, hn⟩ := ih (visit.list tier request)
    exact ⟨n + 1, hn⟩
  | lookup visit tier component requested next ih =>
    obtain ⟨n, hn⟩ := ih (visit.lookup tier component requested)
    exact ⟨n + 1, hn⟩

end Dealing

/-! ## Probes -/

namespace ListingProbe

/-- The question to a tier and what is taken in of the answer. -/
def asking (p : ListingProbe) (tier : Tier) (v : Visit) : Dealing (ListingProbe × Visit) :=
  .list v tier p.request fun (outcome, v) => .done ({ p with outcome := p.outcome.absorb outcome }, v)

/-- The question to the remote tier, after which there is nothing left to ask. -/
def askingRemote (p : ListingProbe) (v : Visit) : Dealing (ListingProbe × Visit) :=
  asking { p with stage := .settled } .remote v

/-- One step further. -/
def resolving (p : ListingProbe) (v : Visit) : Dealing (ListingProbe × Visit) :=
  match p.stage with
  | .fresh =>
    (p.asking .nearby v).andThen fun (p, v) =>
      if p.outcome.hasResult then
        .done ({ p with stage := if p.outcome.authoritative then .settled else .remoteLeft }, v)
      else p.askingRemote v
  | .remoteLeft => p.askingRemote v
  | .settled => .done (p, v)

@[simp] theorem finish_asking (p : ListingProbe) (tier : Tier) (v : Visit) : (p.asking tier v).finish = p.ask tier v := rfl

@[simp] theorem finish_resolving (p : ListingProbe) (v : Visit) : (p.resolving v).finish = p.resolve v := by
  unfold resolving resolve
  cases p.stage with
  | fresh =>
    dsimp only
    rw [Dealing.finish_andThen, finish_asking]
    split <;> rfl
  | remoteLeft => rfl
  | settled => rfl

end ListingProbe

namespace CandidateProbe

/-- The question to the nearby tier and, where needed, to the remote one. -/
def searching (p : CandidateProbe) (v : Visit) : Dealing (LookupOutcome × Visit) :=
  .lookup v .nearby p.component p.requested fun (nearby, v) =>
    if needsRemote nearby then
      .lookup v .remote p.component p.requested fun (remote, v) =>
        .done ((Outcome.absorb .unknown nearby).absorb remote, v)
    else .done (Outcome.absorb .unknown nearby, v)

/-- The search, which is made only the first time. -/
def resolving (p : CandidateProbe) (v : Visit) : Dealing (LookupOutcome × CandidateProbe × Visit) :=
  match p.found with
  | some outcome => .done (outcome, p, v)
  | none => (p.searching v).andThen fun (outcome, v) => .done (outcome, { p with found := some outcome }, v)

@[simp] theorem finish_searching (p : CandidateProbe) (v : Visit) : (p.searching v).finish = p.search v := by
  unfold searching search Dealing.finish
  dsimp only
  split <;> rfl

@[simp] theorem finish_resolving (p : CandidateProbe) (v : Visit) : (p.resolving v).finish = p.resolve v := by
  unfold resolving resolve
  cases p.found with
  | some outcome => rfl
  | none =>
    dsimp only
    rw [Dealing.finish_andThen, finish_searching]
    rfl

end CandidateProbe

/-! ## The state of a request -/

namespace RequestState

/-- Finding out the metadata of a version. -/
def consulting (s : RequestState) (version : String) : Dealing (LookupOutcome × RequestState) :=
  ((s.probeFor version).resolving s.visit).andThen fun (outcome, p, visit) =>
    .done (outcome, { (s.withProbe version).putProbe p with visit })

/-- Trying to adopt a matched version. -/
def adopting (s : RequestState) (component : Component) : Dealing RequestState :=
  ((s.noticing component).consulting component.version).andThen fun r => .done (taken component r)

/-- Taking in a verdict of the policy. -/
def applying (s : RequestState) : Verdict → Dealing RequestState
  | .isMatch component =>
    let s := { s with matching := s.matching ++ [component.version] }
    if s.selected.isSome then .done s else s.adopting component
  | verdict => .done (s.apply verdict)

/-- Following a selection among the offered versions. -/
def following (offered : List String) : Selection → RequestState → Dealing RequestState
  | .done, s => .done s
  | .report verdict next, s => (s.applying verdict).andThen (following offered next)
  | .inspect position next, s =>
    match offered[position]? with
    | some version => (s.consulting version).andThen fun (outcome, s) => following offered (next outcome) s
    | none => following offered (next .unknown) s

/-- Offering a listing to the policy. -/
def selecting (policy : Policy) (turn : Nat) (versions : List String) (s : RequestState) : Dealing RequestState :=
  let s := versions.foldl withProbe { s with matching := [] }
  (following versions (policy.select turn (Candidate.offer s.request versions) s.request) s).andThen fun s => .done s.conclude

/-- A step in the repository, the policy's selection being made as the given turn. -/
def resolving (policy : Policy) (turn : Nat) (s : RequestState) : Dealing RequestState :=
  (s.listing.resolving s.visit).andThen fun (listing, visit) =>
    let s := { s with listing, visit }
    match listing.state with
    | some (.failed f) => .done (s.failing f)
    | some (.listed versions) => s.selecting policy turn versions
    | none => .done s

@[simp] theorem finish_consulting (s : RequestState) (version : String) :
    (s.consulting version).finish = s.consult version := by
  unfold consulting
  rw [Dealing.finish_andThen, CandidateProbe.finish_resolving]
  rfl

@[simp] theorem finish_adopting (s : RequestState) (component : Component) :
    (s.adopting component).finish = s.adopt component := by
  unfold adopting
  rw [Dealing.finish_andThen, finish_consulting]
  rfl

@[simp] theorem finish_applying (s : RequestState) (verdict : Verdict) : (s.applying verdict).finish = s.apply verdict := by
  cases verdict with
  | isMatch component =>
    unfold applying apply
    dsimp only
    split
    · rfl
    · exact finish_adopting _ _
  | notMatched | rejected | noMatch | failed => rfl

@[simp] theorem finish_following (offered : List String) (sel : Selection) :
    ∀ s : RequestState, (following offered sel s).finish = follow offered sel s := by
  induction sel with
  | done => intro s; rfl
  | report verdict next ih =>
    intro s
    unfold following follow
    rw [Dealing.finish_andThen, finish_applying]
    exact ih _
  | inspect position next ih =>
    intro s
    unfold following follow
    cases offered[position]? with
    | none => exact ih .unknown s
    | some version =>
      dsimp only
      rw [Dealing.finish_andThen, finish_consulting]
      exact ih _ _

@[simp] theorem finish_selecting (policy : Policy) (turn : Nat) (versions : List String) (s : RequestState) :
    (s.selecting policy turn versions).finish = s.select policy turn versions := by
  unfold selecting select
  dsimp only
  rw [Dealing.finish_andThen, finish_following]
  rfl

/-- The dealings of a step, asked through, are the step. -/
theorem finish_resolving (policy : Policy) (turn : Nat) (s : RequestState) :
    (s.resolving policy turn).finish = (s.resolve policy turn).2 := by
  unfold resolving
  rw [Dealing.finish_andThen, ListingProbe.finish_resolving, resolve_eq]
  dsimp only
  have hs : s.afterListing = { s with
      listing := (s.listing.resolve s.visit).1
      visit := (s.listing.resolve s.visit).2 } := rfl
  rw [← hs]
  have hl : (s.listing.resolve s.visit).1.state = s.afterListing.listing.state := rfl
  rw [hl]
  cases s.afterListing.listing.state with
  | none => rfl
  | some r =>
    cases r with
    | failed f => rfl
    | listed versions => exact finish_selecting policy turn versions s.afterListing

end RequestState

end VersionChain
