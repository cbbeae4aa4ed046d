import VersionChain.Outcome
import VersionChain.Version.Basic

/-!
# Selection policies

A policy decides which of the offered versions a request selects, and which of two components is the newer one. A selection is a
dialogue: the policy gives verdicts on versions and may ask for the metadata of a candidate, so that what it does next depends on
the answer. A policy may also depend on its turn, the number of selections it has made before.
-/

namespace VersionChain

/-- A version that is offered for selection, with its place in the offer. -/
structure Candidate where
  position : Nat
  component : Component
deriving DecidableEq

/-- The version of a candidate. -/
def Candidate.version (c : Candidate) : Version := ⟨c.component.version⟩

/-- What a policy can report. -/
inductive Verdict where
  /-- The component is selected, in addition to those reported before. -/
  | isMatch (component : Component)
  /-- The selector does not ask for this version. -/
  | notMatched (version : String)
  /-- The selector asks for this version, but a rule excludes it. -/
  | rejected (version : String)
  /-- No version was selected. -/
  | noMatch
  /-- The selection cannot be made. -/
  | failed (failure : Failure)
deriving DecidableEq

/-- The rest of a selection. -/
inductive Selection where
  | done
  /-- A verdict, and how the selection goes on. -/
  | report (verdict : Verdict) (next : Selection)
  /-- A question for the metadata of the candidate at a position, and how the selection goes on after the answer. -/
  | inspect (position : Nat) (next : LookupOutcome → Selection)

/-- One of two. -/
inductive Newest where
  | first
  | second
deriving DecidableEq

/-- A selection policy. -/
structure Policy where
  /-- The selection among the candidates of a request, made as the given turn. -/
  select : (turn : Nat) → List Candidate → Request → Selection
  /-- The newer of two components. -/
  newest : Metadata → Metadata → Newest

namespace Candidate

/-- The versions of the requested module, each with its place. -/
def offer (request : Request) (versions : List String) : List Candidate :=
  versions.zipIdx.map fun (version, position) => ⟨position, request.component version⟩

end Candidate

namespace Selection

/-- The verdicts of a selection and the positions it asks about, when the candidates' metadata is given by position. A position
without candidate is not known. -/
def run (outcomes : List LookupOutcome) : Selection → List Verdict × List Nat
  | done => ([], [])
  | report verdict next =>
    let (verdicts, asked) := next.run outcomes
    (verdict :: verdicts, asked)
  | inspect position next =>
    let (verdicts, asked) := (next (outcomes.getD position .unknown)).run outcomes
    (verdicts, position :: asked)

end Selection

end VersionChain
