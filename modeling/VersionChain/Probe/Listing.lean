import VersionChain.Repository.Basic

/-!
# Listing probes

A listing probe finds the versions of a module in one repository, one tier at a time. The nearby tier is asked first; when it
knows nothing the remote tier is asked at once, when it has a result that is not authoritative the remote tier is left for a
second attempt, and an authoritative result rules the remote tier out.
-/

namespace VersionChain

/-- How far a listing probe has come. -/
inductive ListingStage where
  /-- No tier was asked. -/
  | fresh
  /-- The nearby tier gave a result that is not final. -/
  | remoteLeft
  /-- The remote tier was asked, or ruled out. -/
  | settled
deriving DecidableEq

/-- The search for the versions of a module in one repository. -/
structure ListingProbe where
  request : Request
  stage : ListingStage := .fresh
  outcome : ListingOutcome := .unknown
deriving DecidableEq

namespace ListingProbe

/-- The versions found so far, or the failure to find them; nothing when no tier that was asked knows the module. -/
def state (p : ListingProbe) : Option Listing := p.outcome.result

/-- Whether the remote tier may still be asked. -/
def canGoFurther (p : ListingProbe) : Bool := p.stage != .settled

/-- The locations searched so far. -/
def attempted (p : ListingProbe) : List String := p.outcome.attempted

/-- Asks a tier and takes in what it says. -/
def ask (p : ListingProbe) (tier : Tier) (v : Visit) : ListingProbe × Visit :=
  let (outcome, v) := v.list tier p.request
  ({ p with outcome := p.outcome.absorb outcome }, v)

/-- Asks the remote tier, after which there is nothing left to ask. -/
def askRemote (p : ListingProbe) (v : Visit) : ListingProbe × Visit :=
  ask { p with stage := .settled } .remote v

/-- Goes one step further. -/
def resolve (p : ListingProbe) (v : Visit) : ListingProbe × Visit :=
  match p.stage with
  | .fresh =>
    let (p, v) := p.ask .nearby v
    if p.outcome.hasResult then
      ({ p with stage := if p.outcome.authoritative then .settled else .remoteLeft }, v)
    else p.askRemote v
  | .remoteLeft => p.askRemote v
  | .settled => (p, v)

/-- Goes as far as there is anything to ask. -/
def exhaust (p : ListingProbe) (v : Visit) : ListingProbe × Visit :=
  let (p, v) := p.resolve v
  if p.canGoFurther then p.resolve v else (p, v)

end ListingProbe

end VersionChain
