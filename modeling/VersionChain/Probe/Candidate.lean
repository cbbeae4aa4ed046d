import VersionChain.Repository.Basic

/-!
# Candidate probes

A candidate probe finds the metadata of one version in one repository, once. The nearby tier is asked; the remote tier is asked
as well unless the nearby answer is conclusive or authoritative. The outcome is kept, so asking the probe again costs nothing.
-/

namespace VersionChain

/-- The search for the metadata of one version. -/
structure CandidateProbe where
  component : Component
  /-- The request for exactly this version. -/
  requested : Request
  /-- What the search came to, once it was made. -/
  found : Option LookupOutcome := none
deriving DecidableEq

namespace CandidateProbe

/-- The probe for a version of the requested module. -/
def new (request : Request) (version : String) : CandidateProbe where
  component := request.component version
  requested := request.pinned version

/-- Whether the remote tier is asked after the nearby tier answered. -/
def needsRemote (nearby : LookupOutcome) : Bool :=
  match nearby.result with
  | none => true
  | some r => !r.isConclusive && !nearby.authoritative

/-- Asks the nearby tier and, where needed, the remote one. -/
def search (p : CandidateProbe) (v : Visit) : LookupOutcome × Visit :=
  let (nearby, v) := v.lookup .nearby p.component p.requested
  if needsRemote nearby then
    let (remote, v) := v.lookup .remote p.component p.requested
    ((Outcome.absorb .unknown nearby).absorb remote, v)
  else (Outcome.absorb .unknown nearby, v)

/-- The outcome of the search, which is made only the first time. -/
def resolve (p : CandidateProbe) (v : Visit) : LookupOutcome × CandidateProbe × Visit :=
  match p.found with
  | some outcome => (outcome, p, v)
  | none =>
    let (outcome, v) := p.search v
    (outcome, { p with found := some outcome }, v)

/-- The metadata in an outcome. Without any, an outcome that says why is reported in `target`. -/
def report (outcome target : LookupOutcome) : Option Metadata × LookupOutcome :=
  match outcome.result with
  | some (.resolved m) => (some m, target)
  | some .missing => (none, { target with result := some .missing, attempted := target.attempted ++ outcome.attempted })
  | some (.failed f) => (none, { target with result := some (.failed f) })
  | none => (none, target)

/-- Resolves the probe and reports into `target`. -/
def tryResolve (p : CandidateProbe) (target : LookupOutcome) (v : Visit) :
    Option Metadata × LookupOutcome × CandidateProbe × Visit :=
  let (outcome, p, v) := p.resolve v
  let (metadata, target) := report outcome target
  (metadata, target, p, v)

end CandidateProbe

end VersionChain
