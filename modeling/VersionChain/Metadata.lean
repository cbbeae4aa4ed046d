import VersionChain.Coordinate
import VersionChain.Failure

/-!
# Component metadata

What a repository knows about one component: its maturity status within a scheme of statuses, whether it changes in place, what
it depends on, which artifacts it has and where all this was read. Metadata that was chosen among several matching versions is
wrapped with the list of those versions; the wrapping shows in `allVersions?` only.
-/

namespace VersionChain

/-- A component that another one depends on. -/
structure Dependency where
  group : String
  name : String
  version : String
deriving DecidableEq

/-- A published file of a component. -/
structure Artifact where
  name : String
  extension : String
  classifier : Option String
deriving DecidableEq

/-- Where metadata was read. -/
structure Provenance where
  repository : String
  tier : Tier
  location : String
deriving DecidableEq

/-- The words for a provenance. -/
def Provenance.text (p : Provenance) : String := p.repository ++ " (" ++ p.tier.name ++ "): " ++ p.location

/-- What a descriptor file says about a component; a part it leaves out has a default. -/
structure Descriptor where
  status : Option String := none
  statusScheme : Option (List String) := none
  changing : Bool := false
  dependencies : List Dependency := []
  artifacts : List Artifact := []
deriving DecidableEq

/-- The metadata of one component. -/
structure Facts where
  id : Component
  status : String
  statusScheme : List String
  changing : Bool
  provenance : Option Provenance
  dependencies : List Dependency
  artifacts : List Artifact
deriving DecidableEq

namespace Facts

/-- The status of a component whose descriptor names none. -/
def defaultStatus : String := "release"

/-- The scheme of a component whose descriptor has none, from least to most mature. -/
def defaultScheme : List String := ["integration", "milestone", "release"]

/-- The extension of an artifact whose descriptor names none. -/
def defaultExtension : String := "jar"

/-- The metadata that a descriptor gives to a component. -/
def ofDescriptor (id : Component) (d : Descriptor) : Facts where
  id := id
  status := d.status.getD defaultStatus
  statusScheme := d.statusScheme.getD defaultScheme
  changing := d.changing
  provenance := none
  dependencies := d.dependencies
  artifacts := d.artifacts

/-- The metadata of a component about which nothing is said. -/
def plain (id : Component) : Facts := ofDescriptor id {}

end Facts

/-- Metadata as it is handed out: the facts, or metadata wrapped with all versions it was chosen among. -/
inductive Metadata where
  | facts (f : Facts)
  | chosen (allVersions : List String) (selected : Metadata)
deriving DecidableEq

namespace Metadata

/-- The facts inside all wrappings. -/
def base : Metadata → Facts
  | facts f => f
  | chosen _ m => m.base

/-- The component described. -/
def id (m : Metadata) : Component := m.base.id

/-- The maturity status. -/
def status (m : Metadata) : String := m.base.status

/-- The statuses from least to most mature. -/
def statusScheme (m : Metadata) : List String := m.base.statusScheme

/-- Whether the component changes in place. -/
def isChanging (m : Metadata) : Bool := m.base.changing

/-- Where the metadata was read. -/
def provenance (m : Metadata) : Option Provenance := m.base.provenance

/-- The dependencies. -/
def dependencies (m : Metadata) : List Dependency := m.base.dependencies

/-- The artifacts. -/
def artifacts (m : Metadata) : List Artifact := m.base.artifacts

/-- The first artifact with the given name, extension and classifier. -/
def artifact? (m : Metadata) (name extension : String) (classifier : Option String) : Option Artifact :=
  m.artifacts.find? (· == ⟨name, extension, classifier⟩)

/-- The same metadata, read elsewhere. -/
def withProvenance (p : Provenance) : Metadata → Metadata
  | facts f => facts { f with provenance := some p }
  | chosen vs m => chosen vs (m.withProvenance p)

@[simp] theorem base_withProvenance (p : Provenance) (m : Metadata) :
    (m.withProvenance p).base = { m.base with provenance := some p } := by
  induction m with
  | facts f => rfl
  | chosen vs m ih => exact ih

/-- The versions among which the metadata was chosen, if it is wrapped. -/
def allVersions? : Metadata → Option (List String)
  | facts _ => none
  | chosen vs _ => some vs

end Metadata

end VersionChain
