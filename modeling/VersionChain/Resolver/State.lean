import VersionChain.Policy.Basic
import VersionChain.Probe.Candidate
import VersionChain.Probe.Listing
import VersionChain.Text.Distinct

/-!
# The state of a request in one repository

A request visits each repository with a listing probe and, for each version that comes up, one candidate probe; both are kept
when the repository is asked a second time, so no tier is asked twice. Listed versions are offered to the policy. Of the versions
it matches, the first one with metadata is adopted; all of them are remembered.
-/

namespace VersionChain

/-- All a request knows about one repository. -/
structure RequestState where
  request : Request
  visit : Visit
  listing : ListingProbe
  /-- A probe for every version that was listed or matched. -/
  candidates : List CandidateProbe := []
  /-- The versions matched in the latest listing, in the order of the verdicts. -/
  matching : List String := []
  /-- The versions that were not matched, in any listing. -/
  unmatched : List String := []
  /-- The versions that were rejected, in any listing. -/
  rejected : List String := []
  /-- The metadata of the adopted version. -/
  selected : Option Metadata := none
  /-- What the request came to in this repository. -/
  resolved : LookupOutcome := .unknown

namespace RequestState

/-- The state before anything is asked. -/
def start (request : Request) (session : Session) : RequestState where
  request := request
  visit := { session }
  listing := { request }

/-- What the request came to in this repository so far. -/
def outcome (s : RequestState) : Option Lookup := s.resolved.result

/-- Whether asking again may change the outcome. -/
def canGoFurther (s : RequestState) : Bool := s.listing.canGoFurther

/-- The locations searched for versions and for metadata so far. -/
def attempted (s : RequestState) : List String := s.listing.attempted ++ s.visit.attempts

/-- The probe for a version, if the version has come up. -/
def probe? (s : RequestState) (version : String) : Option CandidateProbe :=
  s.candidates.find? (·.component.version == version)

/-- The probes after a version has come up. -/
def withProbe (s : RequestState) (version : String) : RequestState :=
  if (s.probe? version).isSome then s else { s with candidates := s.candidates ++ [.new s.request version] }

/-- The state with a probe put in the place of the one for the same version. -/
def putProbe (s : RequestState) (p : CandidateProbe) : RequestState :=
  { s with candidates := s.candidates.map fun q => if q.component.version == p.component.version then p else q }

/-- Finds out the metadata of a version. -/
def consult (s : RequestState) (version : String) : LookupOutcome × RequestState :=
  let p := (s.probe? version).getD (.new s.request version)
  let (outcome, p, visit) := p.resolve s.visit
  (outcome, { (s.withProbe version).putProbe p with visit })

/-- Tries to adopt a matched version. Without metadata the version is left, and the outcome says why. -/
def adopt (s : RequestState) (component : Component) : RequestState :=
  let s := if (s.probe? component.version).isSome then s
    else { s with visit := s.visit.tell (.unlisted component s.visit.name) }
  let (outcome, s) := s.consult component.version
  let (metadata, resolved) := CandidateProbe.report outcome s.resolved
  let s := { s with selected := metadata, resolved }
  if metadata.isSome then s
  else { s with visit := s.visit.tell (.noMetadata component s.visit.name (Lookup.stateName resolved.result)) }

/-- Takes in a verdict of the policy. -/
def apply (s : RequestState) : Verdict → RequestState
  | .isMatch component =>
    let s := { s with matching := s.matching ++ [component.version] }
    if s.selected.isSome then s else s.adopt component
  | .notMatched version => { s with unmatched := Text.insertNew s.unmatched version }
  | .rejected version => { s with rejected := Text.insertNew s.rejected version }
  | .noMatch => { s with resolved := { s.resolved with result := some .missing } }
  | .failed f => { s with resolved := { s.resolved with result := some (.failed f) } }

/-- Follows a selection among the offered versions to its end. -/
def follow (offered : List String) : Selection → RequestState → RequestState
  | .done, s => s
  | .report verdict next, s => follow offered next (s.apply verdict)
  | .inspect position next, s =>
    match offered[position]? with
    | some version =>
      let (outcome, s) := s.consult version
      follow offered (next outcome) s
    | none => follow offered (next .unknown) s

/-- Makes the adopted metadata the outcome, wrapped with the matching versions unless there is exactly one. -/
def conclude (s : RequestState) : RequestState :=
  match s.selected with
  | none => s
  | some m =>
    let metadata := if s.matching.length = 1 then m else .chosen s.matching m
    { s with resolved := { s.resolved with result := some (.resolved metadata) } }

/-- Offers a listing to the policy and concludes from its verdicts. The matches of an earlier listing are forgotten. -/
def select (policy : Policy) (turn : Nat) (versions : List String) (s : RequestState) : RequestState :=
  let s := versions.foldl withProbe { s with matching := [] }
  (follow versions (policy.select turn (Candidate.offer s.request versions) s.request) s).conclude

/-- Asks the repository one step further and returns the next turn of the policy. -/
def resolve (policy : Policy) (turn : Nat) (s : RequestState) : Nat × RequestState :=
  let (listing, visit) := s.listing.resolve s.visit
  let s := { s with listing, visit }
  match listing.state with
  | some (.failed f) => (turn, { s with resolved := { s.resolved with result := some (.failed f) } })
  | some (.listed versions) => (turn + 1, s.select policy turn versions)
  | none => (turn, s)

end RequestState

end VersionChain
